import G7Ctrl.Command.IntPrompt
import Mathlib.Data.List.Forall2

/-!
# The places of the arguments

The device reads the arguments of a command by their places between the commas.  What is asked for
with `get_cmd_args` has to arrive there as it was typed: a text with a comma in it moves everything
behind it, and a reply of 64 characters loses its last one.

* `KeepsPlaces` — what is expected of `argbuff` when 0 is returned.
* **`collectArgs_value`** — what is collected is one reply for every argument, cut to the size of
  the buffer and of the kind that was asked for.
* **`keepsPlaces_iff`** — the expectation is met exactly when no reply is cut and no text has a
  comma.
* `commaInText_shifts` — a password with a comma in it.
-/

namespace G7

/-- The replies that were taken: as the user has typed them, and as they were left in `reply`. -/
def repliesIn (trace : List ArgEvent) : List (CStr × CStr) :=
  trace.filterMap fun
    | .takes typed reply => some (typed, reply)
    | .tells _ => none

/-- The replies as they were typed. -/
def typedReplies (trace : List ArgEvent) : List CStr := (repliesIn trace).map Prod.fst

/-- The replies as they were taken. -/
def takenReplies (trace : List ArgEvent) : List CStr := (repliesIn trace).map Prod.snd

/-- What a field of `argbuff` may be. -/
structure FieldFits (a : CmdArg) (field : CStr) : Prop where
  int : a.type = .int → AllDigits field
  select : a.type = .select → field = [] ∨ field ∈ a.values

/-- **The arguments keep their places**: `argbuff` has the replies as they were typed, and its
fields are those of the arguments. -/
structure KeepsPlaces (args : List CmdArg) (trace : List ArgEvent) (argbuff : CStr) : Prop where
  joined : argbuff = [ch ','].intercalate (typedReplies trace)
  whole : takenReplies trace = typedReplies trace
  numargs : args ≠ [] → (argbuff.splitOn (ch ',')).length = args.length
  kinds : args ≠ [] → List.Forall₂ FieldFits args (argbuff.splitOn (ch ','))

/-- A reply that keeps its place. -/
structure ReplyFits (a : CmdArg) (typed : CStr) : Prop where
  short : typed.length < replySize
  comma : a.type = .string ∨ a.type = .float → ch ',' ∉ typed

/-! ## Splitting what was joined -/

section

variable {sep : Byte} {s : CStr} {pieces : List CStr}

lemma splitOn_intercalate_flatMap (hne : pieces ≠ []) :
    ([sep].intercalate pieces).splitOn sep = pieces.flatMap (·.splitOn sep) := by
  induction pieces with
  | nil => exact absurd rfl hne
  | cons p pieces ih =>
      cases pieces with
      | nil => simp
      | cons q pieces =>
          rw [List.intercalate_cons_cons, List.flatMap_cons, ← ih (List.cons_ne_nil q pieces),
            List.append_assoc, List.singleton_append, List.splitOn_append_cons_self]

lemma length_splitOn_eq_one_iff : (s.splitOn sep).length = 1 ↔ sep ∉ s := by
  constructor
  · intro h hmem
    obtain ⟨before, after, rfl⟩ := List.append_of_mem hmem
    rw [List.splitOn_append_cons_self, List.length_append] at h
    have hbefore := List.length_pos_iff.mpr (List.splitOn_ne_nil sep before)
    have hafter := List.length_pos_iff.mpr (List.splitOn_ne_nil sep after)
    omega
  · intro h
    rw [List.splitOn_eq_singleton h, List.length_singleton]

lemma length_le_flatMap_splitOn (sep : Byte) (pieces : List CStr) :
    pieces.length ≤ (pieces.flatMap (·.splitOn sep)).length := by
  induction pieces with
  | nil => exact Nat.le_refl _
  | cons p pieces ih =>
      have hp := List.length_pos_iff.mpr (List.splitOn_ne_nil sep p)
      rw [List.flatMap_cons, List.length_append, List.length_cons]
      omega

/-- **There are as many fields as pieces** exactly when no piece has the separator in it. -/
theorem length_splitOn_intercalate_iff (hne : pieces ≠ []) :
    (([sep].intercalate pieces).splitOn sep).length = pieces.length ↔ ∀ p ∈ pieces, sep ∉ p := by
  rw [splitOn_intercalate_flatMap hne]
  clear hne
  induction pieces with
  | nil => simp
  | cons p pieces ih =>
      have hp := List.length_pos_iff.mpr (List.splitOn_ne_nil sep p)
      have hle := length_le_flatMap_splitOn sep pieces
      rw [List.forall_mem_cons, ← ih, ← length_splitOn_eq_one_iff, List.flatMap_cons,
        List.length_append, List.length_cons]
      omega

end

/-! ## One argument -/

section

variable {σ : Type} {reading : Reading} {f : CStr → Answer σ ArgEvent ℤ CStr} {reply : CStr}
  {events trace : List ArgEvent} {inputs rest : List Reading} {a : CmdArg}

/-- What was taken for an argument: the reply, without what the buffer has no room for. -/
structure TakenFor (a : CmdArg) (typed reply : CStr) : Prop where
  cut : reply = typed.take (replySize - 1)
  fits : FieldFits a reply
  bool : a.type = .bool → reply = [ch '0'] ∨ reply = [ch '1']

@[simp] lemma repliesIn_append (u v : List ArgEvent) :
    repliesIn (u ++ v) = repliesIn u ++ repliesIn v :=
  List.filterMap_append

/-- There is one reply among the events, taken for the argument. -/
def TakesOne (a : CmdArg) (events : List ArgEvent) (reply : CStr) : Prop :=
  ∃ typed, repliesIn events = [(typed, reply)] ∧ TakenFor a typed reply

lemma TakesOne.append_left {u : List ArgEvent} (h : TakesOne a trace reply)
    (hu : repliesIn u = []) : TakesOne a (u ++ trace) reply := by
  obtain ⟨typed, htaken, hfor⟩ := h
  exact ⟨typed, by rw [repliesIn_append, hu, htaken, List.nil_append], hfor⟩

lemma getArg_ok (h : getArg replySize reading = .ok reply) :
    reply = reading.typed.take (replySize - 1) := by
  match reading, h with
  | .bytes (c :: s), h =>
      rcases Nat.lt_or_ge replySize (Reading.bytes (c :: s)).typed.length with hlt | hle
      · rw [getArg_of_lt hlt] at h
        cases h
      · rw [getArg_of_le hle] at h
        exact (Except.ok.inj h).symm

/-- A reply that is taken is one that `get_arg` has left. -/
lemma onReply_accept (h : onReply reading f = .accept events reply) :
    ∃ r, r = reading.typed.take (replySize - 1) ∧ f r = .accept events reply := by
  rw [onReply] at h
  cases hget : getArg replySize reading with
  | error rc =>
      rw [hget] at h
      cases h
  | ok r =>
      rw [hget] at h
      dsimp only at h
      split_ifs at h
      exact ⟨r, getArg_ok hget, h⟩

lemma onReply_again {s' : σ} (h : onReply reading f = .again events s') :
    ∃ r, f r = .again events s' := by
  rw [onReply] at h
  cases hget : getArg replySize reading with
  | error rc =>
      rw [hget] at h
      cases h
  | ok r =>
      rw [hget] at h
      dsimp only at h
      split_ifs at h
      exact ⟨r, h⟩

/-- **A loop takes one reply**, when all it accepts are replies of the kind. -/
lemma retry_takesOne {prompt : List ArgEvent} {answer : σ → Reading → Answer σ ArgEvent ℤ CStr}
    {g : σ → Reading → CStr → Answer σ ArgEvent ℤ CStr}
    (hanswer : ∀ s reading, answer s reading = onReply reading (g s reading))
    (hprompt : repliesIn prompt = [])
    (hagain : ∀ s reading r events s', g s reading r = .again events s' → repliesIn events = [])
    (haccept : ∀ s reading r events reply, g s reading r = .accept events reply →
      events = [.takes reading.typed r] ∧ reply = r ∧ FieldFits a r ∧
        (a.type = .bool → r = [ch '0'] ∨ r = [ch '1'])) {s : σ}
    (h : Dialogue.retry prompt answer s inputs = ⟨trace, .value reply rest⟩) :
    TakesOne a trace reply := by
  refine Dialogue.retry_value (p := fun _ => True) trivial ?_ ?_ h
  · intro s reading events s' _ hround
    rw [hanswer] at hround
    obtain ⟨r, hr⟩ := onReply_again hround
    refine ⟨trivial, fun rest hrest => hrest.append_left ?_⟩
    rw [repliesIn_append, hprompt, hagain s reading r events s' hr, List.nil_append]
  · intro s reading events _ hround
    rw [hanswer] at hround
    obtain ⟨r, hcut, hr⟩ := onReply_accept hround
    obtain ⟨rfl, rfl, hfits, hbool⟩ := haccept s reading r events reply hr
    exact TakesOne.append_left ⟨_, rfl, ⟨hcut, hfits, hbool⟩⟩ hprompt

lemma takeReply_accept {r : CStr} (h : (takeReply reading r : Answer σ _ _ _) = .accept events reply) :
    events = [.takes reading.typed r] ∧ reply = r := by
  rw [takeReply] at h
  injection h with hevents hreply
  exact ⟨hevents.symm, hreply.symm⟩

lemma takeReply_ne_again {r : CStr} {s : σ} :
    (takeReply reading r : Answer σ ArgEvent ℤ CStr) ≠ .again events s := by
  rw [takeReply]
  exact fun h => by cases h

lemma repliesIn_alternatives (a : CmdArg) : repliesIn a.alternatives = [] := by
  rw [CmdArg.alternatives, repliesIn, List.filterMap_cons_none rfl, List.filterMap_map,
    List.filterMap_eq_nil_iff]
  exact fun v _ => rfl

/-- A text is taken as it is. -/
lemma text_takesOne (htype : a.type ≠ .int ∧ a.type ≠ .select ∧ a.type ≠ .bool)
    (h : Dialogue.retry a.prompt answerText () inputs = ⟨trace, .value reply rest⟩) :
    TakesOne a trace reply := by
  refine retry_takesOne (g := fun _ reading r => takeReply reading r) (fun _ _ => rfl)
    rfl (fun _ _ _ _ _ hagain => absurd hagain takeReply_ne_again) ?_ h
  intro _ reading r events reply haccept
  obtain ⟨hevents, hreply⟩ := takeReply_accept haccept
  exact ⟨hevents, hreply, ⟨fun h => absurd h htype.1, fun h => absurd h htype.2.1⟩,
    fun h => absurd h htype.2.2⟩

lemma int_takesOne (htype : a.type = .int)
    (h : Dialogue.retry a.prompt answerInt true inputs = ⟨trace, .value reply rest⟩) :
    TakesOne a trace reply := by
  refine retry_takesOne (fun _ _ => rfl) rfl ?_ ?_ h
  · intro flag reading r events s' hagain
    split_ifs at hagain
    · exact absurd hagain takeReply_ne_again
    · exact absurd hagain takeReply_ne_again
    · injection hagain with hevents
      exact hevents ▸ rfl
  · intro flag reading r events reply haccept
    have hselect : a.type ≠ .select := by simp [htype]
    have hbool : a.type ≠ .bool := by simp [htype]
    split_ifs at haccept with hnil hscan
    · obtain ⟨hevents, hreply⟩ := takeReply_accept haccept
      refine ⟨hevents, hreply, ⟨fun _ => ?_, fun h => absurd h hselect⟩, fun h => absurd h hbool⟩
      rw [hnil]
      exact fun c hc => absurd hc List.not_mem_nil
    · obtain ⟨hevents, hreply⟩ := takeReply_accept haccept
      exact ⟨hevents, hreply, ⟨fun _ => (scanDigits_iff.mp hscan).2, fun h => absurd h hselect⟩,
        fun h => absurd h hbool⟩

lemma bool_takesOne (htype : a.type = .bool)
    (h : Dialogue.retry [.tells (str "Select (0/1) ?" ++ crlf)] answerBool () inputs
      = ⟨trace, .value reply rest⟩) : TakesOne a trace reply := by
  refine retry_takesOne (fun _ _ => rfl) rfl ?_ ?_ h
  · intro _ reading r events s' hagain
    split_ifs at hagain
    · exact absurd hagain takeReply_ne_again
    · injection hagain with hevents
      exact hevents ▸ rfl
  · intro _ reading r events reply haccept
    split_ifs at haccept with hone
    obtain ⟨hevents, hreply⟩ := takeReply_accept haccept
    obtain ⟨c, rfl⟩ := List.length_eq_one_iff.mp hone.1
    have hint : a.type ≠ .int := by simp [htype]
    have hselect : a.type ≠ .select := by simp [htype]
    refine ⟨hevents, hreply, ⟨fun h => absurd h hint, fun h => absurd h hselect⟩, fun _ => ?_⟩
    simpa using hone.2

lemma select_takesOne (htype : a.type = .select) {text : CStr}
    (h : Dialogue.retry [.tells text, .tells crlf] (answerSelect a) () inputs
      = ⟨trace, .value reply rest⟩) : TakesOne a trace reply := by
  refine retry_takesOne (fun _ _ => rfl) rfl ?_ ?_ h
  · intro _ reading r events s' hagain
    split_ifs at hagain
    · exact absurd hagain takeReply_ne_again
    · exact absurd hagain takeReply_ne_again
    · injection hagain with hevents
      exact hevents ▸ rfl
  · intro _ reading r events reply haccept
    have hint : a.type ≠ .int := by simp [htype]
    have hbool : a.type ≠ .bool := by simp [htype]
    split_ifs at haccept with hnil hmem
    · obtain ⟨hevents, hreply⟩ := takeReply_accept haccept
      exact ⟨hevents, hreply, ⟨fun h => absurd h hint, fun _ => Or.inl hnil⟩,
        fun h => absurd h hbool⟩
    · obtain ⟨hevents, hreply⟩ := takeReply_accept haccept
      exact ⟨hevents, hreply, ⟨fun h => absurd h hint, fun _ => Or.inr hmem⟩,
        fun h => absurd h hbool⟩

/-- **Every argument takes one reply.** -/
theorem askArg_takesOne (h : askArg a inputs = ⟨trace, .value reply rest⟩) :
    TakesOne a trace reply := by
  rw [askArg] at h
  cases htype : a.type with
  | bool =>
      rw [htype] at h
      dsimp only at h
      split_ifs at h with hauto
      · cases h
        refine ⟨str "1", rfl, rfl, ⟨fun h => ?_, fun h => ?_⟩, fun _ => Or.inr rfl⟩
        · cases htype.symm.trans h
        · cases htype.symm.trans h
      · obtain ⟨later, hlater, rfl⟩ := Turns.after_eq_iff.mp h
        exact (bool_takesOne htype hlater).append_left rfl
  | int =>
      rw [htype] at h
      exact int_takesOne htype h
  | float =>
      rw [htype] at h
      exact text_takesOne (by simp [htype]) h
  | select =>
      rw [htype] at h
      obtain ⟨later, hlater, rfl⟩ := Turns.after_eq_iff.mp h
      exact (select_takesOne htype hlater).append_left (repliesIn_alternatives a)
  | string =>
      rw [htype] at h
      exact text_takesOne (by simp [htype]) h

end

/-! ## All arguments -/

section

variable {maxlen i : ℕ} {argbuff out reply : CStr} {args : List CmdArg} {trace : List ArgEvent}
  {inputs rest : List Reading}

/-- A reply that is stored fits the buffer, with its comma. -/
lemma storeReply_value {b : CStr}
    (h : storeReply maxlen i argbuff reply inputs = ⟨trace, .value b rest⟩) :
    trace = [] ∧ b = (if 0 < i then argbuff ++ [ch ','] else argbuff) ++ reply := by
  by_cases hfull : maxlen ≤ argbuff.length + reply.length + 1
  · rw [storeReply, if_pos hfull] at h
    cases h
  · rw [storeReply, if_neg hfull] at h
    cases h
    have hcomma : xstrlcat argbuff [ch ','] maxlen = argbuff ++ [ch ','] :=
      xstrlcat_eq_append (by rw [List.length_singleton]; omega)
    refine ⟨rfl, ?_⟩
    split_ifs
    · rw [hcomma, xstrlcat_eq_append (by rw [List.length_append, List.length_singleton]; omega)]
    · rw [xstrlcat_eq_append (by omega)]

/-- **What is collected**: a reply for every argument, behind what is there already. -/
theorem collectArgs_value (h : collectArgs maxlen i argbuff args inputs = ⟨trace, .value out rest⟩) :
    out = (if i = 0 then argbuff ++ [ch ','].intercalate (takenReplies trace)
        else joinOnto (ch ',') argbuff (takenReplies trace)) ∧
      List.Forall₂ (fun a r => TakenFor a r.1 r.2) args (repliesIn trace) := by
  induction args generalizing i argbuff inputs trace with
  | nil =>
      cases h
      refine ⟨?_, List.Forall₂.nil⟩
      simp [takenReplies, repliesIn]
  | cons a args ih =>
      rw [collectArgs_cons] at h
      obtain ⟨first, reply, mid, second, hask, hsecond, rfl⟩ := Dialogue.bind_value h
      obtain ⟨third, b, mid', fourth, hstore, hrest, rfl⟩ := Dialogue.bind_value hsecond
      obtain ⟨rfl, rfl⟩ := storeReply_value hstore
      obtain ⟨typed, htaken, hfor⟩ := askArg_takesOne hask
      obtain ⟨hout, hall⟩ := ih hrest
      have hreplies : repliesIn (first ++ ([] ++ fourth)) = (typed, reply) :: repliesIn fourth := by
        rw [List.nil_append, repliesIn_append, htaken, List.singleton_append]
      refine ⟨?_, hreplies ▸ List.Forall₂.cons hfor hall⟩
      rw [takenReplies, hreplies, List.map_cons, ← takenReplies, hout,
        if_neg (Nat.succ_ne_zero i), joinOnto_cons, intercalate_eq_joinOnto]
      rcases Nat.eq_zero_or_pos i with rfl | hi
      · rw [if_neg (Nat.lt_irrefl 0), if_pos rfl, joinOnto, joinOnto, List.append_assoc]
      · rw [if_pos hi, if_neg (Nat.pos_iff_ne_zero.mp hi), List.append_assoc,
          List.singleton_append]

/-- A reply that was taken for an argument of the table, and that fits its place, has not lost
anything and has no comma. -/
lemma TakenFor.of_fits {p : CmdArgs} (hp : p ∈ cmdargsList) {a : CmdArg} (ha : a ∈ p.args)
    {typed : CStr} (h : TakenFor a typed reply) (hfits : ReplyFits a typed) :
    reply = typed ∧ ch ',' ∉ typed := by
  have hcut : reply = typed := by
    rw [h.cut, List.take_of_length_le (Nat.le_sub_one_of_lt hfits.short)]
  refine ⟨hcut, fun hmem => ?_⟩
  rw [← hcut] at hmem
  cases htype : a.type with
  | bool =>
      rcases h.bool htype with rfl | rfl
      · exact absurd hmem (by decide)
      · exact absurd hmem (by decide)
  | int => exact absurd (h.fits.int htype _ hmem) (by decide)
  | float => exact hfits.comma (Or.inr htype) (hcut ▸ hmem)
  | select =>
      rcases h.fits.select htype with rfl | hvalue
      · exact absurd hmem List.not_mem_nil
      · exact (forall_mem_select p hp a ha _ hvalue).2 hmem
  | string => exact hfits.comma (Or.inl htype) (hcut ▸ hmem)

/-- What holds on the right of a relation holds of every element there. -/
lemma forall_mem_of_forall₂ {α β : Type} {R : α → β → Prop} {q : β → Prop} {l : List α} {u : List β}
    (h : List.Forall₂ R l u) (hq : ∀ a ∈ l, ∀ b, R a b → q b) : ∀ b ∈ u, q b := by
  induction h with
  | nil => exact fun b hb => absurd hb List.not_mem_nil
  | cons hab _ ih =>
      rw [List.forall_mem_cons]
      exact ⟨hq _ List.mem_cons_self _ hab, ih fun a ha => hq a (List.mem_cons_of_mem _ ha)⟩

/-- What holds of every element on the right may be used for the relation. -/
lemma forall₂_imp_of_forall_mem {α β : Type} {R S : α → β → Prop} {q : β → Prop} {l : List α}
    {u : List β} (h : List.Forall₂ R l u) (hq : ∀ b ∈ u, q b) (hS : ∀ a b, R a b → q b → S a b) :
    List.Forall₂ S l u := by
  induction h with
  | nil => exact List.Forall₂.nil
  | cons hab _ ih =>
      rw [List.forall_mem_cons] at hq
      exact List.Forall₂.cons (hS _ _ hab hq.1) (ih hq.2)

/-- **When the arguments keep their places.** -/
theorem keepsPlaces_iff {cmdidx : ℕ} {p : CmdArgs} (hp : cmdArgsFor cmdidx = some p)
    (h : getCmdArgs maxlen cmdidx inputs = ⟨trace, .value argbuff rest⟩) :
    KeepsPlaces p.args trace argbuff ↔ List.Forall₂ ReplyFits p.args (typedReplies trace) := by
  have hmem := mem_of_cmdArgsFor hp
  rw [getCmdArgs_eq hp] at h
  obtain ⟨hout, hall⟩ := collectArgs_value h
  rw [if_pos rfl, List.nil_append] at hout
  have hlen : (typedReplies trace).length = p.args.length := by
    rw [typedReplies, List.length_map, hall.length_eq]
  rw [typedReplies, List.forall₂_map_right_iff]
  constructor
  · intro hkeeps
    have hsame : ∀ r ∈ repliesIn trace, r.2 = r.1 := List.map_inj_left.mp hkeeps.whole
    refine forall₂_imp_of_forall_mem hall (q := fun r => r.2 = r.1 ∧ ch ',' ∉ r.1) ?_ ?_
    · intro r hr
      have hne : typedReplies trace ≠ [] := List.ne_nil_of_mem (List.mem_map_of_mem hr)
      have hargs : p.args ≠ [] := by
        rw [← List.length_pos_iff, ← hlen, List.length_pos_iff]
        exact hne
      have hfields := hkeeps.numargs hargs
      rw [hkeeps.joined, ← hlen, length_splitOn_intercalate_iff hne] at hfields
      exact ⟨hsame r hr, hfields r.1 (List.mem_map_of_mem hr)⟩
    · rintro a r hfor ⟨hr, hcomma⟩
      refine ⟨?_, fun _ => hcomma⟩
      have hcut := congrArg List.length (hr.symm.trans hfor.cut)
      rw [List.length_take] at hcut
      simp only [replySize] at hcut ⊢
      omega
  · intro hfits
    have hand : List.Forall₂ (fun a r => TakenFor a r.1 r.2 ∧ ReplyFits a r.1) p.args
        (repliesIn trace) := List.Forall₂.mp (fun _ _ => And.intro) hall hfits
    have hboth : ∀ r ∈ repliesIn trace, r.2 = r.1 ∧ ch ',' ∉ r.1 :=
      forall_mem_of_forall₂ hand fun a ha r h => h.1.of_fits hmem ha h.2
    have hwhole : takenReplies trace = typedReplies trace :=
      List.map_inj_left.mpr fun r hr => (hboth r hr).1
    have hsplit : p.args ≠ [] → argbuff.splitOn (ch ',') = takenReplies trace := by
      intro hargs
      rw [hout, hwhole]
      refine List.splitOn_intercalate (ch ',') ?_ ?_
      · exact List.forall_mem_map.mpr fun r hr => (hboth r hr).2
      · rw [← List.length_pos_iff, hlen, List.length_pos_iff]
        exact hargs
    refine ⟨by rw [hout, hwhole], hwhole, fun hargs => ?_, fun hargs => ?_⟩
    · rw [hsplit hargs, hwhole, hlen]
    · rw [hsplit hargs, takenReplies, List.forall₂_map_right_iff]
      exact hall.imp fun a r hfor => hfor.fits

end

/-- Two numbers for `phone`. -/
theorem keepsPlaces_phone : ∃ p trace, cmdArgsFor 1 = some p ∧
    getCmdArgs 256 1 [.bytes (str "1\r\n"), .bytes (str "12\r\n")]
      = ⟨trace, .value (str "1,12") []⟩ ∧
    KeepsPlaces p.args trace (str "1,12") := by
  have hrun : getCmdArgs 256 1 [.bytes (str "1\r\n"), .bytes (str "12\r\n")]
      = ⟨_, .value (str "1,12") []⟩ := rfl
  refine ⟨_, _, rfl, hrun, (keepsPlaces_iff rfl hrun).mpr ?_⟩
  exact .cons (.mk (by decide) (by decide)) (.cons (.mk (by decide) (by decide)) .nil)

/-- **A comma in a text shifts what follows.**  At the first number of `vip` two numbers are typed;
there are six fields for five arguments then. -/
theorem commaInText_shifts : ∃ p trace argbuff, cmdArgsFor 17 = some p ∧
    getCmdArgs 256 17 [.bytes (str "+46701,+46702\r\n"), .bytes (str "\r\n"),
      .bytes (str "\r\n"), .bytes (str "\r\n"), .bytes (str "\r\n")]
      = ⟨trace, .value argbuff []⟩ ∧
    ¬ KeepsPlaces p.args trace argbuff := by
  refine ⟨_, _, str "+46701,+46702,,,,", rfl, rfl, fun h => ?_⟩
  exact absurd (h.numargs (List.cons_ne_nil _ _)) (by decide +kernel)

end G7
