import G7Ctrl.Assoc.Array
import G7Ctrl.Core.OrderedMap

/-!
# The operations of the associative array

An array stands for a finite map with the order of insertion, and every operation is one on maps.

* `Represents` — an array stands for a map.
* **`Represents.get_eq`** — a look-up gives what the map has.
* **`assocPut_new`**, **`assocAdd_spec`**, **`assocCopy_spec`**, **`assocClear_spec`**,
  **`assocUpdate_present`**, **`assocDel_present`**, **`assocSort_spec`** — the map afterwards.
-/

namespace G7

/-- The map an array stands for. -/
abbrev AssocMap := OrderedMap CStr CStr

/-- The cell of an entry. -/
def cellOf (e : Σ _ : CStr, CStr) : AssocPair := ⟨.text e.1, .text e.2⟩

/-- The array stands for the map. -/
structure Represents (a : AssocArray) (m : AssocMap) : Prop where
  cells : ∃ rest, a.a = m.entries.map cellOf ++ rest
  num : a.numValues = m.entries.length
  block : a.a.length = a.maxValues
  four : 4 ≤ a.maxValues
  names : ∀ name ∈ m, name ≠ []

/-! ## Searching -/

section Find

variable {name : CStr} {l : List (Σ _ : CStr, CStr)}

/-- The search passes cells with other names. -/
lemma assocFind_skip (h : name ∉ l.keys) (front rest : List AssocPair) (left : ℕ) :
    assocFind (front ++ (l.map cellOf ++ rest)) name (l.length + left) front.length =
      assocFind (front ++ (l.map cellOf ++ rest)) name left (front.length + l.length) := by
  induction l generalizing front with
  | nil =>
      rw [List.length_nil, Nat.zero_add]
      rfl
  | cons e l ih =>
      rw [List.keys_cons, List.mem_cons, not_or] at h
      have hih := ih h.2 (front ++ [cellOf e])
      rw [List.append_assoc, List.length_append, List.length_singleton] at hih
      rw [List.map_cons, List.cons_append, List.length_cons, Nat.add_right_comm, assocFind,
        load_append_length, Checked.done_bind]
      refine (if_neg (Ne.symm h.1)).trans (hih.trans ?_)
      rw [Nat.add_assoc, Nat.add_comm 1]
      rfl

/-- It finds a name. -/
lemma assocFind_present (h : name ∉ l.keys) (value : CStr) (rest : List AssocPair) {num : ℕ}
    (hnum : l.length < num) :
    assocFind (l.map cellOf ++ cellOf ⟨name, value⟩ :: rest) name num 0 = .done l.length := by
  obtain ⟨left, rfl⟩ := Nat.exists_eq_add_of_lt hnum
  have hskip := assocFind_skip h [] (cellOf ⟨name, value⟩ :: rest) (left + 1)
  rw [List.nil_append, List.length_nil, Nat.zero_add] at hskip
  rw [Nat.add_assoc]
  refine hskip.trans ?_
  have hload := load_append_length (l.map cellOf) (cellOf ⟨name, value⟩) rest
  rw [List.length_map] at hload
  rw [assocFind, hload]
  exact if_pos rfl

/-- Or it ends behind the last one. -/
lemma assocFind_absent (h : name ∉ l.keys) (rest : List AssocPair) :
    assocFind (l.map cellOf ++ rest) name l.length 0 = .done l.length := by
  have hskip := assocFind_skip h [] rest 0
  rw [List.nil_append, List.length_nil, Nat.zero_add] at hskip
  exact hskip

end Find

namespace Represents

variable {a : AssocArray} {m : AssocMap} {name : CStr}

lemma num_le (h : Represents a m) : a.numValues ≤ a.maxValues := by
  obtain ⟨rest, hcells⟩ := h.cells
  rw [← h.block, h.num, hcells, List.length_append, List.length_map]
  exact Nat.le_add_right _ _

lemma find_present (h : Represents a m) {l₁ l₂ : List (Σ _ : CStr, CStr)} {value : CStr}
    (hsplit : m.entries = l₁ ++ ⟨name, value⟩ :: l₂) (hl : name ∉ l₁.keys) :
    assocFind a.a name a.numValues 0 = .done l₁.length ∧ l₁.length < a.numValues ∧
      load a.a l₁.length = .done (cellOf ⟨name, value⟩) := by
  obtain ⟨rest, hcells⟩ := h.cells
  rw [hsplit, List.map_append, List.map_cons, List.append_assoc, List.cons_append] at hcells
  have hnum : l₁.length < a.numValues := by
    rw [h.num, hsplit, List.length_append, List.length_cons]
    omega
  have hload := load_append_length (l₁.map cellOf) (cellOf ⟨name, value⟩) (l₂.map cellOf ++ rest)
  rw [List.length_map] at hload
  rw [hcells]
  exact ⟨assocFind_present hl value _ hnum, hnum, hload⟩

lemma find_absent (h : Represents a m) (hname : name ∉ m) :
    assocFind a.a name a.numValues 0 = .done a.numValues := by
  obtain ⟨rest, hcells⟩ := h.cells
  rw [hcells, h.num]
  exact assocFind_absent hname rest

/-- **A look-up gives what the map has.** -/
theorem get_eq (h : Represents a m) (hname : name ≠ []) :
    assocGet a name = .done (m.lookup name) := by
  by_cases hmem : name ∈ m
  · obtain ⟨l₁, value, l₂, hsplit, hl, -⟩ := OrderedMap.exists_split hmem
    obtain ⟨hfind, hnum, hload⟩ := h.find_present hsplit hl
    have hlookup : m.lookup name = some value := OrderedMap.lookup_of_mem (by simp [hsplit])
    rw [assocGet, if_neg (not_or.mpr ⟨hname, by omega⟩), hfind, Checked.done_bind,
      if_neg (by omega), hload, hlookup]
    rfl
  · have hlookup : m.lookup name = none := AList.lookup_eq_none.mpr hmem
    rw [assocGet, hlookup, h.find_absent hmem]
    split_ifs
    · rfl
    · exact if_pos le_rfl

end Represents

/-! ## Clearing and creating -/

/-- A new array stands for the empty map. -/
lemma represents_new {k : ℕ} (hk : 4 ≤ k) {a : AssocArray} (h : assocNew k = some a) :
    Represents a ∅ ∧ a.maxValues = k := by
  rw [assocNew, if_neg (Nat.not_lt.mpr hk)] at h
  cases h
  exact ⟨⟨⟨_, rfl⟩, rfl, List.length_replicate, hk, nofun⟩, rfl⟩

/-- All pairs are freed. -/
lemma freePairs_eq (es : List (Σ _ : CStr, CStr)) (front rest : List AssocPair) :
    freePairs es.length front.length (front ++ (es.map cellOf ++ rest)) =
      .done (front ++ (es.map (fun _ => ⟨.freed, .freed⟩) ++ rest)) := by
  induction es generalizing front with
  | nil => rfl
  | cons e es ih =>
      have hih := ih (front ++ [⟨.freed, .freed⟩])
      rw [List.append_assoc, List.append_assoc, List.length_append, List.length_singleton] at hih
      have hstore : store (front ++ cellOf e :: (es.map cellOf ++ rest)) front.length
          ⟨.freed, .freed⟩ = .done (front ++ ⟨.freed, .freed⟩ :: (es.map cellOf ++ rest)) :=
        store_append_length ..
      rw [List.map_cons, List.cons_append, List.length_cons, freePairs, load_append_length,
        Checked.done_bind]
      refine (congrArg (· >>= _) hstore).trans ?_
      exact hih

/-- **Clearing** leaves the empty map. -/
theorem assocClear_spec {a : AssocArray} {m : AssocMap} (h : Represents a m) :
    ∃ a', assocClear a = .done (0, a') ∧ Represents a' ∅ ∧ a'.maxValues = a.maxValues := by
  obtain ⟨rest, hcells⟩ := h.cells
  have hfree := freePairs_eq m.entries [] rest
  rw [List.nil_append, List.nil_append, List.length_nil, ← hcells, ← h.num] at hfree
  refine ⟨_, congrArg (· >>= _) hfree, ⟨⟨_, rfl⟩, rfl, ?_, h.four, nofun⟩, rfl⟩
  have hblock := h.block
  rw [hcells, List.length_append, List.length_map] at hblock
  rw [List.length_append, List.length_map, hblock]

/-! ## Putting in -/

section Put

variable {a : AssocArray} {m : AssocMap} {name : CStr}

/-- The pair behind the last one is written. -/
lemma Represents.snoc (h : Represents a m) (value : CStr) (hname : name ≠ []) (hnew : name ∉ m)
    (hroom : a.numValues < a.maxValues) :
    ∃ cells, store a.a a.numValues ⟨.text name, .text value⟩ = .done cells ∧
      Represents ⟨cells, a.numValues + 1, a.maxValues⟩ (m.snoc name value hnew) := by
  obtain ⟨rest, hcells⟩ := h.cells
  have hblock := h.block
  rw [hcells, List.length_append, List.length_map, ← h.num] at hblock
  obtain ⟨c, rest, rfl⟩ := List.exists_cons_of_length_pos (show 0 < rest.length by omega)
  have hstore : store a.a a.numValues ⟨.text name, .text value⟩ =
      .done ((m.snoc name value hnew).entries.map cellOf ++ rest) := by
    rw [store_eq_done (by rw [h.block]; exact hroom), hcells, h.num, ← List.length_map cellOf]
    simp [OrderedMap.snoc, cellOf]
  refine ⟨_, hstore, ⟨rest, rfl⟩, ?_, ?_, h.four, ?_⟩
  · rw [h.num, OrderedMap.snoc, List.length_append, List.length_singleton]
  · rw [List.length_cons] at hblock
    show ((m.snoc name value hnew).entries.map cellOf ++ rest).length = a.maxValues
    rw [List.length_append, List.length_map, OrderedMap.snoc, List.length_append,
      List.length_singleton, ← h.num]
    omega
  · intro n hn
    rcases OrderedMap.mem_snoc.mp hn with hold | rfl
    · exact h.names n hold
    · exact hname

/-- A name that is there is refused. -/
lemma assocPut_present (h : Represents a m) (value : CStr) (hname : name ≠ []) (hmem : name ∈ m)
    (depth : ℕ) :
    assocPut (depth + 1) a name value = .done (-2, a) := by
  have hsome : (m.lookup name).isSome = true := AList.lookup_isSome.mpr hmem
  rw [assocPut, if_neg hname, h.get_eq hname, Checked.done_bind, if_pos hsome]
  rfl

/-- A new name, when there is room. -/
lemma assocPut_room (h : Represents a m) (value : CStr) (hname : name ≠ []) (hnew : name ∉ m)
    (hroom : a.numValues < a.maxValues) (depth : ℕ) :
    ∃ a', assocPut (depth + 1) a name value = .done (0, a') ∧
      Represents a' (m.snoc name value hnew) ∧ a'.maxValues = a.maxValues := by
  obtain ⟨cells, hstore, hrep⟩ := h.snoc value hname hnew hroom
  have hnone : m.lookup name = none := AList.lookup_eq_none.mpr hnew
  refine ⟨_, ?_, hrep, rfl⟩
  rw [assocPut, if_neg hname, h.get_eq hname, Checked.done_bind, hnone, if_neg (by decide),
    if_neg (Nat.not_le.mpr hroom), hstore]
  rfl

/-- New pairs, when there is room for all of them. -/
lemma assocAddLoop_room (depth : ℕ) (es : List (Σ _ : CStr, CStr)) (hes : es.NodupKeys)
    (hnames : ∀ e ∈ es, e.1 ≠ []) (front rest : List AssocPair) {a : AssocArray} {m : AssocMap}
    (h : Represents a m) (hnew : ∀ e ∈ es, e.1 ∉ m)
    (hroom : a.numValues + es.length ≤ a.maxValues) :
    ∃ a' m', assocAddLoop (assocPut (depth + 1)) (front ++ (es.map cellOf ++ rest)) es.length
        front.length a = .done (0, a') ∧
      Represents a' m' ∧ m'.entries = m.entries ++ es ∧ a'.maxValues = a.maxValues := by
  induction es generalizing front a m with
  | nil => exact ⟨a, m, rfl, h, (List.append_nil _).symm, rfl⟩
  | cons e es ih =>
      rw [List.nodupKeys_cons] at hes
      have hname := hnames e List.mem_cons_self
      have hmem := hnew e List.mem_cons_self
      rw [List.length_cons] at hroom
      obtain ⟨a₁, hput, hrep, hmax⟩ := assocPut_room h e.2 hname hmem (by omega) depth
      have hnum := hrep.num
      rw [OrderedMap.snoc, List.length_append, List.length_singleton, ← h.num] at hnum
      have hnew' : ∀ e' ∈ es, e'.1 ∉ m.snoc e.1 e.2 hmem := by
        intro e' he' hin
        rcases OrderedMap.mem_snoc.mp hin with hold | heq
        · exact hnew e' (List.mem_cons_of_mem _ he') hold
        · exact hes.1 (heq ▸ List.mem_keys_of_mem he')
      obtain ⟨a', m', hloop, hrep', hentries, hmax'⟩ := ih hes.2
        (fun e' he' => hnames e' (List.mem_cons_of_mem _ he')) (front ++ [cellOf e]) hrep hnew'
        (by omega)
      rw [List.append_assoc, List.length_append, List.length_singleton] at hloop
      refine ⟨a', m', ?_, hrep', ?_, hmax'.trans hmax⟩
      · rw [List.map_cons, List.cons_append, List.length_cons, assocAddLoop, load_append_length]
        refine (congrArg (· >>= _) hput).trans ?_
        exact hloop
      · rw [hentries, OrderedMap.snoc, List.append_assoc]
        rfl

/-- A new name, when the array is full: its storage is doubled. -/
lemma assocPut_grow (h : Represents a m) (value : CStr) (hname : name ≠ []) (hnew : name ∉ m)
    (hfull : a.maxValues ≤ a.numValues) (depth : ℕ) :
    ∃ a', assocPut (depth + 2) a name value = .done (0, a') ∧
      Represents a' (m.snoc name value hnew) := by
  obtain ⟨rest, hcells⟩ := h.cells
  have hfour := h.four
  have hblock := h.block
  rw [hcells, List.length_append, List.length_map, ← h.num] at hblock
  obtain ⟨tmp, htmp⟩ : ∃ tmp, assocNew (a.maxValues * 2) = some tmp :=
    ⟨_, if_neg (by omega)⟩
  obtain ⟨hrep, hmax⟩ := represents_new (by omega) htmp
  obtain ⟨tmp₁, hclear, hrep₁, hmax₁⟩ := assocClear_spec hrep
  have hnum₁ : tmp₁.numValues = 0 := hrep₁.num
  have hlen : tmp₁.numValues + m.entries.length ≤ tmp₁.maxValues := by
    rw [← h.num]
    omega
  obtain ⟨tmp₂, m₂, hloop, hrep₂, hentries, hmax₂⟩ := assocAddLoop_room depth m.entries m.nodupKeys
    (fun e he => h.names _ (List.mem_keys_of_mem he)) [] rest hrep₁
    (fun _ _ => AList.notMem_empty _) hlen
  obtain rfl : m₂ = m := AList.ext hentries
  have hfree := freePairs_eq m₂.entries [] rest
  rw [List.nil_append, List.length_nil, ← hcells, ← h.num] at hloop hfree
  have hnum₂ : tmp₂.numValues = a.numValues := by rw [hrep₂.num, h.num]
  obtain ⟨cells, hstore, hrep₃⟩ := hrep₂.snoc value hname hnew (by omega)
  rw [hnum₂] at hstore hrep₃
  have hnone : m₂.lookup name = none := AList.lookup_eq_none.mpr hnew
  refine ⟨_, ?_, hrep₃⟩
  rw [assocPut, if_neg hname, h.get_eq hname, Checked.done_bind, hnone, if_neg (by decide),
    if_pos hfull, htmp]
  refine (congrArg (· >>= _) hclear).trans ?_
  refine (congrArg (· >>= _) hloop).trans ?_
  refine (congrArg (· >>= _) hfree).trans ?_
  exact congrArg (· >>= _) hstore

/-- **Putting in a new name** adds it at the end, whether or not the storage has to grow. -/
theorem assocPut_new (h : Represents a m) (value : CStr) (hname : name ≠ []) (hnew : name ∉ m) :
    ∃ a', assocPut putDepth a name value = .done (0, a') ∧
      Represents a' (m.snoc name value hnew) := by
  rcases Nat.lt_or_ge a.numValues a.maxValues with hroom | hfull
  · obtain ⟨a', hput, hrep, -⟩ := assocPut_room h value hname hnew hroom 1
    exact ⟨a', hput, hrep⟩
  · exact assocPut_grow h value hname hnew hfull 0

end Put

/-! ## Adding an array -/

/-- The pairs that are new are put in, one after the other. -/
lemma assocAddLoop_spec (es : List (Σ _ : CStr, CStr)) (hes : es.NodupKeys)
    (hnames : ∀ e ∈ es, e.1 ≠ []) (front rest : List AssocPair) {a : AssocArray} {m : AssocMap}
    (h : Represents a m) :
    ∃ a' m', assocAddLoop (assocPut putDepth) (front ++ (es.map cellOf ++ rest)) es.length
        front.length a = .done (0, a') ∧
      Represents a' m' ∧ m'.entries = m.entries ++ es.filter fun e => decide (e.1 ∉ m) := by
  induction es generalizing front a m with
  | nil => exact ⟨a, m, rfl, h, (List.append_nil _).symm⟩
  | cons e es ih =>
      rw [List.nodupKeys_cons] at hes
      have hname := hnames e List.mem_cons_self
      have hnames' : ∀ e' ∈ es, e'.1 ≠ [] := fun e' he' => hnames e' (List.mem_cons_of_mem _ he')
      by_cases hmem : e.1 ∈ m
      · obtain ⟨a', m', hloop, hrep, hentries⟩ := ih hes.2 hnames' (front ++ [cellOf e]) h
        rw [List.append_assoc, List.length_append, List.length_singleton] at hloop
        refine ⟨a', m', ?_, hrep, ?_⟩
        · have hput : assocPut putDepth a e.1 e.2 = .done (-2, a) :=
            assocPut_present h e.2 hname hmem 1
          rw [List.map_cons, List.cons_append, List.length_cons, assocAddLoop, load_append_length]
          refine (congrArg (· >>= _) hput).trans ?_
          exact hloop
        · rw [hentries, List.filter_cons_of_neg (by simpa using hmem)]
      · obtain ⟨a₁, hput, hrep₁⟩ := assocPut_new h e.2 hname hmem
        obtain ⟨a', m', hloop, hrep, hentries⟩ := ih hes.2 hnames' (front ++ [cellOf e]) hrep₁
        rw [List.append_assoc, List.length_append, List.length_singleton] at hloop
        refine ⟨a', m', ?_, hrep, ?_⟩
        · rw [List.map_cons, List.cons_append, List.length_cons, assocAddLoop, load_append_length]
          refine (congrArg (· >>= _) hput).trans ?_
          exact hloop
        · have hfilter : (es.filter fun e' => decide (e'.1 ∉ m.snoc e.1 e.2 hmem))
              = es.filter fun e' => decide (e'.1 ∉ m) := by
            refine List.filter_congr fun e' he' => decide_eq_decide.mpr (not_congr ?_)
            rw [OrderedMap.mem_snoc]
            refine or_iff_left fun heq => hes.1 (heq ▸ List.mem_keys_of_mem he')
          rw [hentries, hfilter, List.filter_cons_of_pos (by simpa using hmem), OrderedMap.snoc,
            List.append_assoc]
          rfl

/-- **Adding an array** keeps what is there and puts in what is new. -/
theorem assocAdd_spec {dest src : AssocArray} {m m' : AssocMap} (h : Represents dest m)
    (h' : Represents src m') :
    ∃ a', assocAdd dest src = .done (0, a') ∧ Represents a' (m.appendNew m') := by
  obtain ⟨rest, hcells⟩ := h'.cells
  obtain ⟨a', m'', hloop, hrep, hentries⟩ := assocAddLoop_spec m'.entries m'.nodupKeys
    (fun e he => h'.names _ (List.mem_keys_of_mem he)) [] rest h
  rw [List.nil_append, List.length_nil, ← hcells, ← h'.num] at hloop
  obtain rfl : m'' = m.appendNew m' := AList.ext hentries
  exact ⟨a', hloop, hrep⟩

/-- **Copying** replaces the map. -/
theorem assocCopy_spec {dest src : AssocArray} {m m' : AssocMap} (h : Represents dest m)
    (h' : Represents src m') :
    ∃ a', assocCopy dest src = .done (0, a') ∧ Represents a' m' := by
  obtain ⟨a₁, hclear, hrep₁, -⟩ := assocClear_spec h
  obtain ⟨a', hadd, hrep⟩ := assocAdd_spec hrep₁ h'
  rw [OrderedMap.empty_appendNew] at hrep
  refine ⟨a', ?_, hrep⟩
  rw [assocCopy]
  refine (congrArg (· >>= _) hclear).trans ?_
  exact hadd

/-! ## Changing and deleting -/

section Present

variable {a : AssocArray} {m : AssocMap} {name value : CStr} {l₁ l₂ : List (Σ _ : CStr, CStr)}

/-- **Updating** changes the value and leaves the order. -/
theorem assocUpdate_present (h : Represents a m) (hsplit : m.entries = l₁ ++ ⟨name, value⟩ :: l₂)
    (hl : name ∉ l₁.keys) (value' : CStr) :
    ∃ a', assocUpdate a name value' = .done (0, a') ∧
      Represents a' (m.setValue hsplit value') := by
  obtain ⟨hfind, hnum, hload⟩ := h.find_present hsplit hl
  obtain ⟨rest, hcells⟩ := h.cells
  rw [hsplit, List.map_append, List.map_cons, List.append_assoc, List.cons_append] at hcells
  have hstore : store a.a l₁.length ⟨.text name, .text value'⟩ =
      .done ((m.setValue hsplit value').entries.map cellOf ++ rest) := by
    rw [store_eq_done (by rw [h.block]; exact hnum.trans_le h.num_le), hcells,
      ← List.length_map cellOf]
    simp [OrderedMap.setValue, cellOf]
  refine ⟨⟨(m.setValue hsplit value').entries.map cellOf ++ rest, a.numValues, a.maxValues⟩, ?_,
    ⟨rest, rfl⟩, ?_, ?_, h.four, ?_⟩
  · rw [assocUpdate, hfind, Checked.done_bind, if_neg (Nat.not_le.mpr hnum), hload,
      Checked.done_bind]
    exact congrArg (· >>= _) hstore
  · rw [h.num, hsplit, OrderedMap.setValue]
    simp
  · have hblock := h.block
    rw [hcells] at hblock
    rw [← hblock, OrderedMap.setValue]
    simp
  · intro n hn
    refine h.names n ?_
    rw [AList.mem_keys, AList.keys, hsplit]
    rw [AList.mem_keys, AList.keys, OrderedMap.setValue] at hn
    simpa using hn

/-- The pairs behind a place are copied down. -/
lemma copyDown_eq (l : List AssocPair) (front : List AssocPair) (c : AssocPair)
    (rest : List AssocPair) :
    ∃ last, copyDown l.length front.length (front ++ c :: (l ++ rest)) =
      .done (front ++ (l ++ last :: rest)) := by
  induction l generalizing front c with
  | nil => exact ⟨c, rfl⟩
  | cons d l ih =>
      obtain ⟨last, hrun⟩ := ih (front ++ [d]) d
      rw [List.append_assoc, List.append_assoc, List.length_append, List.length_singleton] at hrun
      have hload : load (front ++ c :: (d :: l ++ rest)) (front.length + 1) = .done d := by
        rw [load_eq_done_iff]
        simp
      refine ⟨last, ?_⟩
      rw [List.length_cons, copyDown, hload, Checked.done_bind, store_append_length,
        Checked.done_bind]
      exact hrun

/-- **Deleting** removes the entry and leaves the order of the others. -/
theorem assocDel_present (h : Represents a m) (hsplit : m.entries = l₁ ++ ⟨name, value⟩ :: l₂)
    (hl : name ∉ l₁.keys) :
    ∃ a', assocDel a name = .done (0, a') ∧ Represents a' (m.remove hsplit) := by
  have hname : name ≠ [] := h.names name (by
    rw [AList.mem_keys, AList.keys, hsplit]
    simp)
  obtain ⟨hfind, hnum, hload⟩ := h.find_present hsplit hl
  obtain ⟨rest, hcells⟩ := h.cells
  rw [hsplit, List.map_append, List.map_cons, List.append_assoc, List.cons_append] at hcells
  have hcount : a.numValues = l₁.length + l₂.length + 1 := by
    rw [h.num, hsplit, List.length_append, List.length_cons, Nat.add_assoc]
  obtain ⟨last, hcopy⟩ := copyDown_eq (l₂.map cellOf) (l₁.map cellOf) (cellOf ⟨name, value⟩) rest
  rw [List.length_map, List.length_map, ← hcells] at hcopy
  have hstore : store (l₁.map cellOf ++ (l₂.map cellOf ++ last :: rest)) (l₁.length + l₂.length)
      .empty = .done ((m.remove hsplit).entries.map cellOf ++ AssocPair.empty :: rest) := by
    have hend : l₁.length + l₂.length = (l₁.map cellOf ++ l₂.map cellOf).length := by simp
    rw [← List.append_assoc, hend, store_eq_done (by simp)]
    simp [OrderedMap.remove]
  refine ⟨⟨(m.remove hsplit).entries.map cellOf ++ AssocPair.empty :: rest,
    a.numValues - 1, a.maxValues⟩, ?_, ⟨_, rfl⟩, ?_, ?_, h.four, ?_⟩
  · have hleft : a.numValues - 1 - l₁.length = l₂.length := by omega
    have hlast : a.numValues - 1 = l₁.length + l₂.length := by omega
    rw [assocDel, if_neg hname, if_neg (by omega), hfind, Checked.done_bind,
      if_neg (Nat.not_le.mpr hnum), hload, Checked.done_bind, hleft, hlast]
    refine (congrArg (· >>= _) hcopy).trans ?_
    exact congrArg (· >>= _) hstore
  · rw [hcount, OrderedMap.remove, List.length_append]
    rfl
  · have hblock := h.block
    rw [hcells] at hblock
    rw [← hblock, OrderedMap.remove]
    simp
    omega
  · intro n hn
    refine h.names n ?_
    rw [AList.mem_keys, AList.keys, OrderedMap.remove] at hn
    rw [AList.mem_keys, AList.keys, hsplit]
    simp only [List.keys_append, List.keys_cons, List.mem_append, List.mem_cons] at hn ⊢
    exact hn.imp_right Or.inr

end Present

section Absent

variable {a : AssocArray} {m : AssocMap} {name : CStr}

/-- An absent name is not updated. -/
lemma assocUpdate_absent (h : Represents a m) (hname : name ∉ m) (value : CStr) :
    assocUpdate a name value = .done (-1, a) := by
  rw [assocUpdate, h.find_absent hname]
  exact if_pos le_rfl

/-- Or deleted. -/
lemma assocDel_absent (h : Represents a m) (hne : name ≠ []) (hname : name ∉ m) :
    assocDel a name = .done (-2, a) := by
  rw [assocDel, if_neg hne, h.find_absent hname]
  split_ifs
  · rfl
  · exact if_pos le_rfl

end Absent

/-! ## Sorting -/

lemma strcmpLe_total (s t : CStr) : (strcmpLe s t || strcmpLe t s) = true := by
  induction s generalizing t with
  | nil => rfl
  | cons c cs ih =>
      cases t with
      | nil => rfl
      | cons d ds =>
          rw [strcmpLe, strcmpLe]
          by_cases hcd : c = d
          · rw [if_pos hcd, if_pos hcd.symm]
            exact ih ds
          · rw [if_neg hcd, if_neg (Ne.symm hcd), Bool.or_eq_true, decide_eq_true_iff,
              decide_eq_true_iff]
            exact UInt8.lt_or_lt_of_ne hcd

lemma strcmpLe_trans (s t u : CStr) (hst : strcmpLe s t = true) (htu : strcmpLe t u = true) :
    strcmpLe s u = true := by
  induction s generalizing t u with
  | nil => rfl
  | cons c cs ih =>
      cases t with
      | nil => exact absurd hst (by rw [strcmpLe]; decide)
      | cons d ds =>
          cases u with
          | nil => exact absurd htu (by rw [strcmpLe]; decide)
          | cons e es =>
              rw [strcmpLe] at hst htu ⊢
              by_cases hcd : c = d
              · subst hcd
                rw [if_pos rfl] at hst
                by_cases hce : c = e
                · rw [if_pos hce] at htu ⊢
                  exact ih ds es hst htu
                · rw [if_neg hce] at htu ⊢
                  exact htu
              · rw [if_neg hcd] at hst
                have hlt := of_decide_eq_true hst
                by_cases hde : d = e
                · subst hde
                  rw [if_neg hcd]
                  exact hst
                · rw [if_neg hde] at htu
                  have hlt' := UInt8.lt_trans hlt (of_decide_eq_true htu)
                  rw [if_neg (UInt8.ne_of_lt hlt')]
                  exact decide_eq_true hlt'

/-- The order of names, on entries. -/
def entryLe (e e' : Σ _ : CStr, CStr) : Bool := strcmpLe e.1 e'.1

lemma pairwise_mergeSort_entryLe (es : List (Σ _ : CStr, CStr)) :
    (es.mergeSort entryLe).Pairwise fun e e' => entryLe e e' = true :=
  List.pairwise_mergeSort (fun e e' e'' => strcmpLe_trans e.1 e'.1 e''.1)
    (fun e e' => strcmpLe_total e.1 e'.1) es

/-- The pairs of a map have names. -/
lemma derefNames_map (es : List (Σ _ : CStr, CStr)) :
    derefNames (es.map cellOf) = .done (es.map fun e => (e.1, cellOf e)) := by
  induction es with
  | nil => rfl
  | cons e es ih =>
      rw [List.map_cons, derefNames, ih]
      rfl

/-- **Sorting** puts the entries into the order of their names, and nothing else. -/
theorem assocSort_spec {a : AssocArray} {m : AssocMap} (h : Represents a m) (hne : m ≠ ∅) :
    ∃ a', assocSort a = .done (0, a') ∧
      Represents a'
        (m.reorder (m.entries.mergeSort entryLe) (m.entries.mergeSort_perm entryLe)) := by
  obtain ⟨rest, hcells⟩ := h.cells
  have hnum : a.numValues ≠ 0 := fun hzero =>
    hne (AList.ext (List.eq_nil_of_length_eq_zero (h.num.symm.trans hzero)))
  have htake : a.a.take a.numValues = m.entries.map cellOf := by
    rw [hcells, h.num, ← List.length_map cellOf, List.take_left]
  have hdrop : a.a.drop a.numValues = rest := by
    rw [hcells, h.num, ← List.length_map cellOf, List.drop_left]
  have hsorted : ((m.entries.map fun e => (e.1, cellOf e)).mergeSort
      fun x y => strcmpLe x.1 y.1).map Prod.snd = (m.entries.mergeSort entryLe).map cellOf := by
    rw [← List.map_mergeSort (r := entryLe) (f := fun e => (e.1, cellOf e)) fun _ _ _ _ => rfl,
      List.map_map]
    rfl
  refine ⟨⟨(m.entries.mergeSort entryLe).map cellOf ++ rest, a.numValues, a.maxValues⟩, ?_,
    ⟨rest, rfl⟩, ?_, ?_, h.four, ?_⟩
  · rw [assocSort, if_neg hnum, htake, hdrop, derefNames_map, Checked.done_bind, ← hsorted]
    rfl
  · rw [h.num]
    exact (List.length_mergeSort m.entries).symm
  · have hblock := h.block
    rw [hcells, List.length_append, List.length_map] at hblock
    show ((m.entries.mergeSort entryLe).map cellOf ++ rest).length = a.maxValues
    rw [List.length_append, List.length_map, List.length_mergeSort, hblock]
  · intro n hn
    refine h.names n ?_
    rw [AList.mem_keys] at hn ⊢
    exact ((m.entries.mergeSort_perm entryLe).map Sigma.fst).mem_iff.mp hn

/-- An empty array is not sorted. -/
lemma assocSort_empty {a : AssocArray} (h : Represents a ∅) : assocSort a = .done (-1, a) := by
  rw [assocSort]
  exact if_pos h.num

end G7
