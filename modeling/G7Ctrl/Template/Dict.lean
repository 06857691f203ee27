import G7Ctrl.Xstr.Block
import G7Ctrl.Xstr.Copy
import G7Ctrl.Xstr.Fold

/-!
# Dictionary substitution (`dict.c`)

A dictionary is a list of keys with values.  `replace_dict_in_buf` replaces every key in square
brackets in a buffer by its value, by way of a work buffer.  It is modelled with the blocks of the
two buffers.

* `Dict`, `newDict`, `getvalDict`, `addDict` — the dictionary.
* `replaceDictInBuf` — the substitution in a buffer.
* `replaceDictInFile` — and in the contents of a file.
-/

namespace G7

/-- `struct dict_tuple` -/
structure DictTuple where
  key : CStr
  val : CStr
  deriving DecidableEq

/-- `struct dict`, with the tuples that are in use. -/
structure Dict where
  tuple : List DictTuple
  maxsize : ℕ
  deriving DecidableEq

/-- The number of tuples. -/
def Dict.idx (dict : Dict) : ℕ := dict.tuple.length

def dictionaryInitialSize : ℕ := 100

def maxDictionaryValSize : ℕ := 1024

def maxReplaceBufferSize : ℕ := 1024 * 1024

/-- `new_dict` -/
def newDict : Dict := ⟨[], dictionaryInitialSize⟩

/-- `getval_dict`, or `none` for `NULL`. -/
def getvalDict (dict : Dict) (key : CStr) : Option CStr :=
  (dict.tuple.find? fun t => key == t.key).map DictTuple.val

/-- `add_dict` -/
def addDict (dict : Dict) (key val : CStr) : ℤ × Dict :=
  if (getvalDict dict key).isSome then (-1, dict)
  else
    let maxsize := if dict.idx ≥ dict.maxsize then 2 * dict.maxsize else dict.maxsize
    (0, ⟨dict.tuple ++ [⟨key, val⟩], maxsize⟩)

/-- `strnlen` -/
def strnlen (mem : List Byte) (maxlen : ℕ) : Checked ℕ :=
  if maxlen ≤ (cstr mem).length then return maxlen
  else if (cstr mem).length < mem.length then return (cstr mem).length
  else .fault

/-- The loop that reads a key into `match`, with the number of cells that are left there.  It gives
the key and the place where it stopped. -/
def scanKey (buffer : List Byte) : ℕ → ℕ → Checked (CStr × ℕ)
  | 0, pp => return ([], pp)
  | left + 1, pp => do
      let c ← load buffer pp
      if c = 0 ∨ c = ch ']' then return ([], pp)
      else
        let (key, pp) ← scanKey buffer left (pp + 1)
        return (c :: key, pp)

/-- `sizeof (match)` -/
def sizeofMatch : ℕ := 256

/-- What is done at a `'['`: the value of the key behind it, with the place to go on from, if there
is such a key. -/
def matchKey (dict : Dict) (buffer : List Byte) (p : ℕ) : Checked (Option (CStr × ℕ)) := do
  let (key, pp) ← scanKey buffer (sizeofMatch - 1) (p + 1)
  let c ← load buffer pp
  if c = ch ']' then
    match dict.tuple.find? fun t => strcasecmp key t.key with
    | some t =>
        let nn := if maxDictionaryValSize < t.val.length then maxDictionaryValSize else t.val.length
        return some (t.val.take nn, pp + 1)
    | none => return none
  else return none

/-- The same at any character `c`. -/
def matchAt (dict : Dict) (buffer : List Byte) (p : ℕ) (c : Byte) :
    Checked (Option (CStr × ℕ)) :=
  if c = ch '[' then matchKey dict buffer p else return none

/-- The loop of `replace_dict_in_buf`.  It gives the work buffer. -/
def replaceLoop (dict : Dict) (size : ℕ) (buffer : List Byte) :
    ℕ → List Byte → ℕ → ℕ → ℕ → Checked (List Byte)
  | 0, _, _, _, _ => .timeout
  | fuel + 1, wbuff, pw, p, n =>
      if n < size then do
        let c ← load buffer p
        if c = 0 then return wbuff
        else
          let found ← matchAt dict buffer p c
          match found with
          | some (val, pp) => do
              let wbuff ← storeBytes wbuff pw val
              replaceLoop dict size buffer fuel wbuff (pw + val.length) pp n
          | none => do
              let wbuff ← store wbuff pw c
              replaceLoop dict size buffer fuel wbuff (pw + 1) (p + 1) (n + 1)
      else return wbuff

/-- `replace_dict_in_buf`, with the buffer it leaves.  Every round reads a byte of the buffer. -/
def replaceDictInBuf (dict : Dict) (buffer : List Byte) (maxlen : ℕ) :
    Checked (ℤ × List Byte) := do
  let len ← strnlen buffer maxReplaceBufferSize
  let size := len + maxDictionaryValSize * dict.idx
  if maxReplaceBufferSize ≤ size then return (-1, buffer)
  else
    let wbuff ← replaceLoop dict size buffer (len + 1) (List.replicate size 0) 0 0 0
    let text ← readStr wbuff
    if maxlen > text.length then
      let buffer ← storeBytes buffer 0 (cblock (xstrlcpy text maxlen))
      return (0, buffer)
    else return (-1, buffer)

/-- `replace_dict_in_file` on the contents of the file. -/
def replaceDictInFile (dict : Dict) (file : List Byte) : Checked (ℤ × List Byte) :=
  let size := file.length + maxDictionaryValSize * dict.idx + 1
  replaceDictInBuf dict (file ++ List.replicate (size - file.length) 0) size

end G7
