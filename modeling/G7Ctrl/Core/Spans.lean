import G7Ctrl.Core.Memory
import Mathlib.Data.List.Sort
import Mathlib.Order.Basic

/-!
# Walks by spans

A row of places, each with the place that follows it, is walked from its front to its end.

* `walk` — the places visited and the place where the walk ends.
* `Chain` — every marked place is followed by the next marked place, or by the end.
* **`walk_iff`** — a walk visits exactly the marked places and ends at the end if and only if they
  are a chain.
* **`Chain.setSpan_iff`** — what a new span does to a chain.
* `Strides` — the steps over spans that end exactly at the end, marked or not.
-/

namespace G7

/-- `while (c < n) c = next(c);`, with the places visited and the place where it ends. -/
def walk (next : ℕ → ℕ) (n : ℕ) : ℕ → ℕ → Checked (List ℕ × ℕ)
  | 0, _ => .timeout
  | fuel + 1, c =>
      if c < n then do
        let (visited, last) ← walk next n fuel (next c)
        return (c :: visited, last)
      else return ([], c)

/-- The marked places from `c` to `n`. -/
def marked (p : ℕ → Bool) (c n : ℕ) : List ℕ := (List.range' c (n - c)).filter p

/-- The marked place `c` is followed by the next marked place below `n`, or by `n`. -/
structure Link (next : ℕ → ℕ) (p : ℕ → Bool) (n c : ℕ) : Prop where
  lt : c < next c
  le : next c ≤ n
  between : ∀ j, c < j → j < next c → p j = false
  onward : next c < n → p (next c) = true

/-- The first place is marked, and so is every place that follows a marked one. -/
structure Chain (next : ℕ → ℕ) (p : ℕ → Bool) (n : ℕ) : Prop where
  start : 0 < n → p 0 = true
  link : ∀ c < n, p c = true → Link next p n c

variable {next next' : ℕ → ℕ} {p p' : ℕ → Bool} {n : ℕ}

/-! ## Marked places -/

lemma marked_of_ge {c : ℕ} (h : n ≤ c) : marked p c n = [] := by
  rw [marked, Nat.sub_eq_zero_of_le h]
  rfl

lemma marked_succ {c : ℕ} (h : c < n) :
    marked p c n = if p c then c :: marked p (c + 1) n else marked p (c + 1) n := by
  have hlen : n - c = (n - (c + 1)) + 1 := by omega
  rw [marked, hlen, List.range'_succ, List.filter_cons]
  rfl

/-- Nothing is marked in between. -/
lemma marked_eq {c d : ℕ} (hcd : c ≤ d) (h : ∀ j, c ≤ j → j < d → p j = false) :
    marked p c n = marked p d n := by
  induction d, hcd using Nat.le_induction with
  | base => rfl
  | succ d hcd ih =>
      rw [ih fun j hj hlt => h j hj (Nat.lt_succ_of_lt hlt)]
      by_cases hd : d < n
      · rw [marked_succ hd, h d hcd (Nat.lt_succ_self d)]
        rfl
      · rw [marked_of_ge (Nat.not_lt.mp hd), marked_of_ge (Nat.not_lt.mp hd |>.trans (Nat.le_succ d))]

/-- The first marked place. -/
lemma marked_cons {c d : ℕ} {ds : List ℕ} (h : marked p c n = d :: ds) :
    c ≤ d ∧ d < n ∧ p d = true ∧ (∀ j, c ≤ j → j < d → p j = false) := by
  have hmem : d ∈ marked p c n := h ▸ List.mem_cons_self
  obtain ⟨hrange, hp⟩ := List.mem_filter.mp hmem
  obtain ⟨hle, hlt⟩ := List.mem_range'_1.mp hrange
  refine ⟨hle, by omega, hp, fun j hcj hjd => ?_⟩
  have hsorted : (marked p c n).Pairwise (· < ·) := (List.pairwise_lt_range' (s := c) (n := n - c)).filter _
  rw [h, List.pairwise_cons] at hsorted
  by_contra hj
  have hmemj : j ∈ marked p c n :=
    List.mem_filter.mpr ⟨List.mem_range'_1.mpr ⟨hcj, by omega⟩, by simpa using hj⟩
  rw [h] at hmemj
  rcases List.mem_cons.mp hmemj with rfl | htail
  · exact absurd hjd (Nat.lt_irrefl _)
  · exact absurd (hsorted.1 j htail) (Nat.not_lt.mpr hjd.le)

lemma marked_nil {c : ℕ} (h : marked p c n = []) {j : ℕ} (hcj : c ≤ j) (hj : j < n) :
    p j = false := by
  by_contra hp
  have hmem : j ∈ marked p c n :=
    List.mem_filter.mpr ⟨List.mem_range'_1.mpr ⟨hcj, by omega⟩, by simpa using hp⟩
  rw [h] at hmem
  exact absurd hmem List.not_mem_nil

lemma marked_zero : marked p 0 n = (List.range n).filter p := by
  rw [marked, Nat.sub_zero, List.range_eq_range']

/-! ## Walks -/

/-- One round of a walk. -/
lemma walk_succ_of_lt {fuel c : ℕ} {visited : List ℕ} {last : ℕ} (h : c < n)
    (hrun : walk next n fuel (next c) = .done (visited, last)) :
    walk next n (fuel + 1) c = .done (c :: visited, last) := by
  rw [walk, if_pos h, hrun]
  rfl

lemma walk_succ_of_ge (fuel : ℕ) {c : ℕ} (h : n ≤ c) : walk next n (fuel + 1) c = .done ([], c) := by
  rw [walk, if_neg (Nat.not_lt.mpr h)]
  rfl

/-- A place that follows itself is never left. -/
lemma walk_of_fixed {c : ℕ} (hc : next c = c) (hlt : c < n) (fuel : ℕ) :
    walk next n fuel c = .timeout := by
  induction fuel with
  | zero => rfl
  | succ fuel ih =>
      rw [walk, if_pos hlt, hc, ih]
      rfl

/-- A walk that is done has a first round. -/
lemma walk_done {fuel c : ℕ} {visited : List ℕ} {last : ℕ}
    (h : walk next n fuel c = .done (visited, last)) :
    ∃ k, fuel = k + 1 ∧ ((n ≤ c ∧ visited = [] ∧ last = c) ∨
      c < n ∧ ∃ rest, visited = c :: rest ∧ walk next n k (next c) = .done (rest, last)) := by
  cases fuel with
  | zero => exact nomatch h
  | succ fuel =>
      refine ⟨fuel, rfl, ?_⟩
      by_cases hc : c < n
      · rw [walk, if_pos hc] at h
        obtain ⟨⟨rest, last'⟩, hrun, hret⟩ := Checked.bind_eq_done.mp h
        cases hret
        exact Or.inr ⟨hc, rest, rfl, hrun⟩
      · rw [walk_succ_of_ge fuel (Nat.not_lt.mp hc)] at h
        cases h
        exact Or.inl ⟨Nat.not_lt.mp hc, rfl, rfl⟩

/-- A chain is walked from any of its places. -/
lemma Chain.walk_eq (h : Chain next p n) {fuel c : ℕ} (hfuel : n - c < fuel) (hcn : c ≤ n)
    (hc : c < n → p c = true) : walk next n fuel c = .done (marked p c n, n) := by
  induction fuel generalizing c with
  | zero => exact absurd hfuel (Nat.not_lt_zero _)
  | succ fuel ih =>
      rcases Nat.lt_or_eq_of_le hcn with hlt | rfl
      · have hlink := h.link c hlt (hc hlt)
        have hcons : marked p c n = c :: marked p (next c) n := by
          rw [marked_succ hlt, if_pos (hc hlt), marked_eq hlink.lt fun j hj hjn =>
            hlink.between j hj hjn]
        rw [hcons]
        exact walk_succ_of_lt hlt (ih (by have := hlink.lt; omega) hlink.le hlink.onward)
      · rw [marked_of_ge le_rfl]
        exact walk_succ_of_ge fuel le_rfl

/-- What is walked so is a chain. -/
lemma link_of_walk {fuel c : ℕ} (hcn : c ≤ n)
    (hrun : walk next n fuel c = .done (marked p c n, n)) :
    (c < n → p c = true) ∧ ∀ d, c ≤ d → d < n → p d = true → Link next p n d := by
  induction fuel generalizing c with
  | zero => exact nomatch hrun
  | succ fuel ih =>
      obtain ⟨fuel', hfuel, hround⟩ := walk_done hrun
      cases hfuel
      rcases hround with ⟨hge, -, -⟩ | ⟨hlt, rest, hvisited, hrest⟩
      · exact ⟨fun hlt => absurd hlt (Nat.not_lt.mpr hge), fun d hcd hdn => absurd hdn (by omega)⟩
      · obtain ⟨-, -, hpc, -⟩ := marked_cons hvisited
        rw [marked_succ hlt, if_pos hpc, List.cons.injEq] at hvisited
        obtain ⟨-, rfl⟩ := hvisited
        -- the place behind `c` is the next marked one, or the end
        have hbehind : c < next c ∧ next c ≤ n ∧ (∀ j, c < j → j < next c → p j = false) := by
          obtain ⟨_, -, hround⟩ := walk_done hrest
          rcases hround with ⟨-, hnil, hlast⟩ | ⟨-, rest, hcons, -⟩
          · rw [← hlast]
            exact ⟨hlt, le_rfl, fun j hj hjn => marked_nil hnil hj hjn⟩
          · obtain ⟨hle, hltn, -, hnone⟩ := marked_cons hcons
            exact ⟨hle, hltn.le, hnone⟩
        obtain ⟨hcnext, hnextn, hbetween⟩ := hbehind
        rw [marked_eq hcnext fun j hj hjn => hbetween j hj hjn] at hrest
        obtain ⟨hstart, hlinks⟩ := ih hnextn hrest
        refine ⟨fun _ => hpc, fun d hcd hdn hpd => ?_⟩
        rcases Nat.lt_or_ge d (next c) with hd | hd
        · rcases Nat.lt_or_eq_of_le hcd with hcd | rfl
          · exact absurd hpd (Bool.eq_false_iff.mp (hbetween d hcd hd))
          · exact ⟨hcnext, hnextn, hbetween, hstart⟩
        · exact hlinks d hd hdn hpd

/-- **A walk visits exactly the marked places** and ends at `n` if and only if they are a chain. -/
theorem walk_iff :
    (∃ fuel, walk next n fuel 0 = .done ((List.range n).filter p, n)) ↔ Chain next p n := by
  rw [← marked_zero]
  constructor
  · rintro ⟨fuel, hrun⟩
    obtain ⟨hstart, hlinks⟩ := link_of_walk (Nat.zero_le n) hrun
    exact ⟨hstart, fun c hc hpc => hlinks c (Nat.zero_le c) hc hpc⟩
  · intro h
    exact ⟨n + 1, h.walk_eq (by omega) (Nat.zero_le n) h.start⟩

/-! ## A new span -/

/-- What a span of places from `c` to `d` does: the first one is marked and the others are not. -/
structure SetSpan (next next' : ℕ → ℕ) (p p' : ℕ → Bool) (c d : ℕ) : Prop where
  next_self : next' c = d
  next_ne : ∀ j, j ≠ c → next' j = next j
  marked_self : p' c = true
  covered : ∀ j, c < j → j < d → p' j = false
  marked_ne : ∀ j, j < c ∨ c < j ∧ d ≤ j → p' j = p j

/-- Every place is covered by a marked one. -/
lemma Chain.exists_cover (h : Chain next p n) {c : ℕ} (hc : c < n) :
    ∃ j ≤ c, p j = true ∧ c < next j := by
  induction c with
  | zero =>
      have hzero := h.start hc
      exact ⟨0, le_rfl, hzero, (h.link 0 hc hzero).lt⟩
  | succ c ih =>
      obtain ⟨j, hjc, hpj, hcover⟩ := ih (Nat.lt_of_succ_lt hc)
      rcases Nat.lt_or_eq_of_le (Nat.succ_le_of_lt hcover) with hlt | heq
      · exact ⟨j, Nat.le_succ_of_le hjc, hpj, hlt⟩
      · have hnext : next j = c + 1 := heq.symm
        have hpnext := (h.link j (by omega) hpj).onward (by omega)
        rw [hnext] at hpnext
        exact ⟨c + 1, le_rfl, hpnext, (h.link (c + 1) hc hpnext).lt⟩

/-- A new span that begins at a place covered by another one breaks the chain. -/
lemma Chain.marked_of_setSpan (h : Chain next p n) {c d : ℕ} (hc : c < n)
    (hset : SetSpan next next' p p' c d) (h' : Chain next' p' n) : p c = true := by
  obtain ⟨j, hjc, hpj, hcover⟩ := h.exists_cover hc
  rcases Nat.lt_or_eq_of_le hjc with hlt | rfl
  · have hpj' : p' j = true := by rwa [hset.marked_ne j (Or.inl hlt)]
    have hnext : next' j = next j := hset.next_ne j (Nat.ne_of_lt hlt)
    have hcovered := (h'.link j (by omega) hpj').between c hlt (by rwa [hnext])
    rw [hset.marked_self] at hcovered
    exact nomatch hcovered
  · exact hpj

/-- **A new span in a chain** makes a chain exactly if it begins at a marked place, has at least one
place, stays inside the row and ends where a marked place follows. -/
theorem Chain.setSpan_iff (h : Chain next p n) {c d : ℕ} (hc : c < n)
    (hset : SetSpan next next' p p' c d) :
    Chain next' p' n ↔ p c = true ∧ c < d ∧ d ≤ n ∧ (d < n → p d = true) := by
  constructor
  · intro h'
    obtain ⟨hlt, hle, -, honward⟩ := h'.link c hc hset.marked_self
    rw [hset.next_self] at hlt hle honward
    refine ⟨h.marked_of_setSpan hc hset h', hlt, hle, fun hdn => ?_⟩
    rw [← hset.marked_ne d (Or.inr ⟨hlt, le_rfl⟩)]
    exact honward hdn
  · rintro ⟨hpc, hcd, hdn, hpd⟩
    refine ⟨fun hn => ?_, fun j hj hpj => ?_⟩
    · rcases Nat.eq_zero_or_pos c with rfl | hpos
      · exact hset.marked_self
      · rw [hset.marked_ne 0 (Or.inl hpos)]
        exact h.start hn
    · rcases Nat.lt_trichotomy j c with hlt | rfl | hgt
      · -- a span in front of the new one ends at it at the latest
        rw [hset.marked_ne j (Or.inl hlt)] at hpj
        have hlink := h.link j hj hpj
        have hends : next j ≤ c := by
          by_contra hcover
          rw [hlink.between c hlt (Nat.not_le.mp hcover)] at hpc
          exact nomatch hpc
        have hnext : next' j = next j := hset.next_ne j (Nat.ne_of_lt hlt)
        refine ⟨by rw [hnext]; exact hlink.lt, by rw [hnext]; exact hlink.le, fun i hji hi => ?_,
          fun hnn => ?_⟩
        · rw [hnext] at hi
          rw [hset.marked_ne i (Or.inl (by omega))]
          exact hlink.between i hji hi
        · rw [hnext] at hnn ⊢
          rcases Nat.lt_or_eq_of_le hends with hin | hat
          · rw [hset.marked_ne _ (Or.inl hin)]
            exact hlink.onward hnn
          · rw [hat]
            exact hset.marked_self
      · have hnext := hset.next_self
        refine ⟨by rwa [hnext], by rwa [hnext], by rw [hnext]; exact hset.covered, fun hlt => ?_⟩
        rw [hnext] at hlt ⊢
        rw [hset.marked_ne d (Or.inr ⟨hcd, le_rfl⟩)]
        exact hpd hlt
      · -- and one behind it begins where it ends at the earliest
        have hdj : d ≤ j := by
          by_contra hcovered
          rw [hset.covered j hgt (Nat.not_le.mp hcovered)] at hpj
          exact nomatch hpj
        rw [hset.marked_ne j (Or.inr ⟨hgt, hdj⟩)] at hpj
        have hlink := h.link j hj hpj
        have hlt := hlink.lt
        have hnext : next' j = next j := hset.next_ne j (Nat.ne_of_gt hgt)
        refine ⟨by rw [hnext]; exact hlt, by rw [hnext]; exact hlink.le, fun i hji hi => ?_,
          fun hnn => ?_⟩
        · rw [hnext] at hi
          rw [hset.marked_ne i (Or.inr ⟨by omega, by omega⟩)]
          exact hlink.between i hji hi
        · rw [hnext] at hnn ⊢
          rw [hset.marked_ne _ (Or.inr ⟨by omega, by omega⟩)]
          exact hlink.onward hnn

/-! ## Strides -/

/-- The places from `c` on that are reached over spans of at least one place, to exactly `n`. -/
inductive Strides (span : ℕ → ℕ) (n : ℕ) : ℕ → List ℕ → Prop
  | nil : Strides span n n []
  | cons {c : ℕ} {cs : List ℕ} (hpos : 0 < span c) (hle : c + span c ≤ n)
      (hrest : Strides span n (c + span c) cs) : Strides span n c (c :: cs)

namespace Strides

variable {span : ℕ → ℕ} {c : ℕ} {cs cs' : List ℕ}

/-- The places are different. -/
lemma length_le (h : Strides span n c cs) : cs.length ≤ n - c := by
  induction h with
  | nil => exact Nat.zero_le _
  | cons hpos hle hrest ih =>
      rw [List.length_cons]
      omega

end Strides

/-- The places that are reached from `c`. -/
def strideList (span : ℕ → ℕ) (n : ℕ) : ℕ → ℕ → List ℕ
  | 0, _ => []
  | fuel + 1, c => if c < n then c :: strideList span n fuel (c + span c) else []

lemma Strides.strideList_eq {span : ℕ → ℕ} {c : ℕ} {cs : List ℕ} (h : Strides span n c cs)
    {fuel : ℕ} (hfuel : cs.length < fuel) : strideList span n fuel c = cs := by
  induction h generalizing fuel with
  | nil =>
      cases fuel with
      | zero => rfl
      | succ fuel => exact if_neg (Nat.lt_irrefl _)
  | cons hpos hle hrest ih =>
      rw [List.length_cons] at hfuel
      obtain ⟨fuel, rfl⟩ := Nat.exists_eq_succ_of_ne_zero (Nat.ne_zero_of_lt hfuel)
      rw [strideList, if_pos (by omega), ih (Nat.lt_of_succ_lt_succ hfuel)]

/-- **A chain is strided** over its spans. -/
theorem Chain.exists_strides (h : Chain next p n) {span : ℕ → ℕ}
    (hspan : ∀ c < n, c < next c → next c = c + span c) {c : ℕ} (hcn : c ≤ n)
    (hc : c < n → p c = true) : ∃ cs, Strides span n c cs := by
  induction hk : n - c using Nat.strong_induction_on generalizing c with
  | _ k ih =>
      rcases Nat.lt_or_eq_of_le hcn with hlt | rfl
      · obtain ⟨hnext, hle, -, honward⟩ := h.link c hlt (hc hlt)
        have heq := hspan c hlt hnext
        rw [heq] at hnext hle honward
        obtain ⟨cs, hcs⟩ := ih (n - (c + span c)) (by omega) hle honward rfl
        exact ⟨c :: cs, .cons (by omega) hle hcs⟩
      · exact ⟨[], .nil⟩

end G7
