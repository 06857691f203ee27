import Mathlib.Data.List.Nodup
import Mathlib.Data.List.Perm.Subperm
import Mathlib.Data.Nat.ModEq

/-!
# Rings of slots

A ring is a fixed number of slots that are written one after the other, and from the first slot on
again when the last one has been written.  A list of writes has the latest first.

* `ringSlot` — what a slot holds: the latest of the writes that went there.
* **`ringSlot_eq`** — which of the writes that is.
* **`ringSlots_perm`** — the slots hold the latest writes, as many as there are slots.
-/

namespace G7

variable {α : Type*}

/-- What a slot holds after these writes. -/
def ringSlot (size : ℕ) : List α → ℕ → Option α
  | [], _ => none
  | v :: vs, i => if vs.length % size = i then some v else ringSlot size vs i

/-- The distance of the latest write to a slot, counted from the latest of all: 0 if that one went
there. -/
lemma sub_mod_of_mod_eq {n size i : ℕ} (h : n % size = i) : (n - i) % size = 0 := by
  subst h
  exact Nat.mod_eq_zero_of_dvd (Nat.dvd_sub_mod n)

/-- Otherwise one more than before the latest of all. -/
lemma sub_mod_of_mod_ne {n size i : ℕ} (hi : i < size) (hin : i < n) (h : n % size ≠ i) :
    (n - i) % size = (n - 1 - i) % size + 1 := by
  have hpos : 0 < size := by omega
  have hr := Nat.mod_lt n hpos
  have hn := Nat.div_add_mod n size
  set q := n / size
  set r := n % size
  rcases Nat.lt_or_ge i r with hlt | hge
  · have hfst : n - i = size * q + (r - i) := by omega
    have hsnd : n - 1 - i = size * q + (r - i - 1) := by omega
    rw [hfst, hsnd, Nat.mul_add_mod, Nat.mul_add_mod, Nat.mod_eq_of_lt (by omega),
      Nat.mod_eq_of_lt (by omega)]
    omega
  · obtain ⟨p, hp⟩ : ∃ p, q = p + 1 := by
      refine Nat.exists_eq_succ_of_ne_zero fun hq => ?_
      rw [hq, Nat.mul_zero] at hn
      omega
    rw [hp, Nat.mul_add, Nat.mul_one] at hn
    have hfst : n - i = size * p + (size + r - i) := by omega
    have hsnd : n - 1 - i = size * p + (size + r - i - 1) := by omega
    rw [hfst, hsnd, Nat.mul_add_mod, Nat.mul_add_mod, Nat.mod_eq_of_lt (by omega),
      Nat.mod_eq_of_lt (by omega)]
    omega

/-- **What a slot holds.** -/
theorem ringSlot_eq {size : ℕ} : ∀ (vs : List α) {i : ℕ}, i < size →
    ringSlot size vs i = if i < vs.length then vs[(vs.length - 1 - i) % size]? else none
  | [], i, _ => by simp [ringSlot]
  | v :: vs, i, hi => by
      have ih := ringSlot_eq vs hi
      rw [ringSlot, List.length_cons, Nat.add_sub_cancel]
      by_cases h : vs.length % size = i
      · have hle : i ≤ vs.length := h ▸ Nat.mod_le ..
        rw [if_pos h, if_pos (by omega), sub_mod_of_mod_eq h]
        rfl
      · have hne : i ≠ vs.length := by
          rintro rfl
          exact h (Nat.mod_eq_of_lt hi)
        rw [if_neg h, ih]
        by_cases hin : i < vs.length
        · rw [if_pos hin, if_pos (by omega), sub_mod_of_mod_ne hi hin h, List.getElem?_cons_succ]
        · rw [if_neg hin, if_neg (by omega)]

/-- Counting back from the latest write goes through as many slots as were written. -/
lemma map_sub_mod_perm {n size : ℕ} (hsize : 0 < size) :
    ((List.range (min n size)).map fun i => (n - 1 - i) % size).Perm
      (List.range (min n size)) := by
  have hnodup : ((List.range (min n size)).map fun i => (n - 1 - i) % size).Nodup := by
    refine List.Nodup.map_on (fun i hi j hj heq => ?_) List.nodup_range
    rw [List.mem_range, Nat.lt_min] at hi hj
    have hsum : n - 1 - i + i ≡ n - 1 - j + j [MOD size] := by
      rw [Nat.sub_add_cancel (by omega), Nat.sub_add_cancel (by omega)]
    exact (Nat.ModEq.add_left_cancel heq hsum).eq_of_lt_of_lt hi.2 hj.2
  refine (hnodup.subperm fun k hk => ?_).perm_of_length_le (by simp)
  obtain ⟨i, hi, rfl⟩ := List.mem_map.mp hk
  rw [List.mem_range, Nat.lt_min] at hi ⊢
  refine ⟨?_, Nat.mod_lt _ hsize⟩
  have := Nat.mod_le (n - 1 - i) size
  omega

/-- A list is what its positions hold. -/
lemma filterMap_getElem?_range (vs : List α) (k : ℕ) :
    (List.range k).filterMap (fun i => vs[i]?) = vs.take k := by
  induction k with
  | zero => simp
  | succ k ih =>
      rw [List.range_succ, List.filterMap_append, ih, List.take_add_one]
      cases h : vs[k]? <;> simp [h]

/-- **The slots hold the latest writes.** -/
theorem ringSlots_perm {size : ℕ} (hsize : 0 < size) (vs : List α) :
    ((List.range size).filterMap (ringSlot size vs)).Perm (vs.take size) := by
  have hslots : (List.range size).filterMap (ringSlot size vs)
      = ((List.range (min vs.length size)).map fun i => (vs.length - 1 - i) % size).filterMap
          (fun i => vs[i]?) := by
    set k := min vs.length size
    have hk : k ≤ size := Nat.min_le_right ..
    have hsplit : List.range size = List.range k ++ (List.range (size - k)).map (k + ·) := by
      rw [← List.range_add, Nat.add_sub_cancel' hk]
    have hrest : ((List.range (size - k)).map (k + ·)).filterMap (ringSlot size vs) = [] := by
      rw [List.filterMap_map, List.filterMap_eq_nil_iff]
      intro i hi
      rw [List.mem_range] at hi
      rw [Function.comp_apply, ringSlot_eq vs (by omega), if_neg (by omega)]
    rw [hsplit, List.filterMap_append, hrest, List.append_nil, List.filterMap_map]
    refine List.filterMap_congr fun i hi => ?_
    rw [List.mem_range, Nat.lt_min] at hi
    rw [ringSlot_eq vs hi.2, if_pos hi.1, Function.comp_apply]
  have hlast : vs.take size = (List.range (min vs.length size)).filterMap (fun i => vs[i]?) := by
    rw [filterMap_getElem?_range, Nat.min_comm, List.take_eq_take_min]
  rw [hslots, hlast]
  exact (map_sub_mod_perm hsize).filterMap _

end G7
