import G7Ctrl.Core.Memory
import G7Ctrl.Core.Bytes
import Mathlib.Data.List.Sort

/-!
# The associative array (`assocarray.c`)

An array of names and values that doubles its storage when it is full.  It is modelled with its
block of cells: a cell holds pointers to two strings, and following a pointer that is `NULL` or
whose string was freed is a fault, as is an access outside the block.

* `AssocArray` — the block and its two counters.
* `assocGet`, `assocPut`, `assocUpdate`, `assocDel`, `assocClear`, `assocAdd`, `assocCopy`,
  `assocSort` — the operations, each with its return code.

Memory is never short here, so a new array is refused only when it is too small.
-/

namespace G7

/-- A pointer to a string. -/
inductive StrPtr
  | null
  | freed
  | text (s : CStr)
  deriving DecidableEq

/-- Following a pointer. -/
def StrPtr.deref : StrPtr → Checked CStr
  | .text s => return s
  | _ => .fault

/-- `free` -/
def StrPtr.free : StrPtr → Checked Unit
  | .freed => .fault
  | _ => return ()

/-- `struct assoc_pair` -/
structure AssocPair where
  name : StrPtr
  value : StrPtr
  deriving DecidableEq

/-- A cell from `calloc`. -/
def AssocPair.empty : AssocPair := ⟨.null, .null⟩

/-- `struct assoc_array` -/
structure AssocArray where
  a : List AssocPair
  numValues : ℕ
  maxValues : ℕ
  deriving DecidableEq

/-- `assoc_new`, or `none` for `NULL`. -/
def assocNew (initialSize : ℕ) : Option AssocArray :=
  if initialSize < 4 then none else some ⟨List.replicate initialSize .empty, 0, initialSize⟩

/-- `while (i < a->num_values && strcmp(name, a->a[i].name)) i++`, with the number of rounds that
are left. -/
def assocFind (a : List AssocPair) (name : CStr) : ℕ → ℕ → Checked ℕ
  | 0, i => return i
  | left + 1, i => do
      let pair ← load a i
      let s ← pair.name.deref
      if s = name then return i else assocFind a name left (i + 1)

/-- `assoc_get`: the value, or `none` for `NULL`. -/
def assocGet (a : AssocArray) (name : CStr) : Checked (Option CStr) :=
  if name = [] ∨ a.numValues = 0 then return none
  else do
    let i ← assocFind a.a name a.numValues 0
    if i ≥ a.numValues then return none
    else
      let pair ← load a.a i
      let value ← pair.value.deref
      return some value

/-- The loop of `assoc_clear`.  The pointers stay as they are. -/
def freePairs : ℕ → ℕ → List AssocPair → Checked (List AssocPair)
  | 0, _, a => return a
  | left + 1, i, a => do
      let pair ← load a i
      pair.name.free
      pair.value.free
      let a ← store a i ⟨.freed, .freed⟩
      freePairs left (i + 1) a

/-- `assoc_clear` -/
def assocClear (a : AssocArray) : Checked (ℤ × AssocArray) := do
  let cells ← freePairs a.numValues 0 a.a
  return (0, ⟨cells, 0, a.maxValues⟩)

/-- The loop of `assoc_add`, given `assoc_put`. -/
def assocAddLoop (put : AssocArray → CStr → CStr → Checked (ℤ × AssocArray)) (src : List AssocPair) :
    ℕ → ℕ → AssocArray → Checked (ℤ × AssocArray)
  | 0, _, dest => return (0, dest)
  | left + 1, i, dest => do
      let pair ← load src i
      let name ← pair.name.deref
      let value ← pair.value.deref
      let (rc, dest) ← put dest name value
      if rc = -1 then return (-1, dest) else assocAddLoop put src left (i + 1) dest

/-- `assoc_put`.  When the array is full its pairs are copied to one twice as large, whose storage
it then takes; the copy puts them in by `assoc_put` again, which is `depth` calls deep at most. -/
def assocPut : ℕ → AssocArray → CStr → CStr → Checked (ℤ × AssocArray)
  | 0, _, _, _ => .timeout
  | depth + 1, a, name, value =>
      if name = [] then return (-1, a)
      else do
        let found ← assocGet a name
        if found.isSome then return (-2, a)
        else if a.numValues ≥ a.maxValues then
          match assocNew (a.maxValues * 2) with
          | none => return (-1, a)
          | some tmp => do
              let (_, tmp) ← assocClear tmp
              let (_, tmp) ← assocAddLoop (assocPut depth) a.a a.numValues 0 tmp
              let _ ← freePairs a.numValues 0 a.a
              let cells ← store tmp.a a.numValues ⟨.text name, .text value⟩
              return (0, ⟨cells, a.numValues + 1, tmp.maxValues⟩)
        else
          let cells ← store a.a a.numValues ⟨.text name, .text value⟩
          return (0, ⟨cells, a.numValues + 1, a.maxValues⟩)

/-- The call of `assoc_put` in a copy is the only one inside another. -/
def putDepth : ℕ := 2

/-- `assoc_add` -/
def assocAdd (dest src : AssocArray) : Checked (ℤ × AssocArray) :=
  assocAddLoop (assocPut putDepth) src.a src.numValues 0 dest

/-- `assoc_copy` -/
def assocCopy (dest src : AssocArray) : Checked (ℤ × AssocArray) := do
  let (_, dest) ← assocClear dest
  assocAdd dest src

/-- `assoc_update` -/
def assocUpdate (a : AssocArray) (name value : CStr) : Checked (ℤ × AssocArray) := do
  let i ← assocFind a.a name a.numValues 0
  if i ≥ a.numValues then return (-1, a)
  else
    let pair ← load a.a i
    pair.value.free
    let cells ← store a.a i ⟨pair.name, .text value⟩
    return (0, { a with a := cells })

/-- The loop of `assoc_del`: the pairs from `j + 1` on are copied down. -/
def copyDown : ℕ → ℕ → List AssocPair → Checked (List AssocPair)
  | 0, _, a => return a
  | left + 1, j, a => do
      let pair ← load a (j + 1)
      let a ← store a j pair
      copyDown left (j + 1) a

/-- `assoc_del` -/
def assocDel (a : AssocArray) (name : CStr) : Checked (ℤ × AssocArray) :=
  if name = [] then return (-1, a)
  else if a.numValues = 0 then return (-2, a)
  else do
    let i ← assocFind a.a name a.numValues 0
    if i ≥ a.numValues then return (-2, a)
    else
      let pair ← load a.a i
      pair.name.free
      pair.value.free
      let cells ← copyDown (a.numValues - 1 - i) i a.a
      let cells ← store cells (a.numValues - 1) .empty
      return (0, { a with a := cells, numValues := a.numValues - 1 })

/-- `strcmp(s, t) <= 0` -/
def strcmpLe : CStr → CStr → Bool
  | [], _ => true
  | _ :: _, [] => false
  | c :: cs, d :: ds => if c = d then strcmpLe cs ds else decide (c < d)

/-- The names of cells, with the cells. -/
def derefNames : List AssocPair → Checked (List (CStr × AssocPair))
  | [] => return []
  | pair :: pairs => do
      let name ← pair.name.deref
      let rest ← derefNames pairs
      return (name, pair) :: rest

/-- `assoc_sort`: `qsort` with a comparison of the names. -/
def assocSort (a : AssocArray) : Checked (ℤ × AssocArray) :=
  if a.numValues = 0 then return (-1, a)
  else do
    let named ← derefNames (a.a.take a.numValues)
    let sorted := named.mergeSort fun x y => strcmpLe x.1 y.1
    return (0, { a with a := sorted.map Prod.snd ++ a.a.drop a.numValues })

end G7
