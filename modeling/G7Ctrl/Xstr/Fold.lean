import G7Ctrl.Core.Bytes

/-!
# Comparing without regard to case (`strcasecmp`, `xstricmp`)

Both fold the ASCII capitals.  `xstricmp` finds no two strings equal of which one has 4096
characters or more.

* **`strcasecmp_iff`**, **`xstricmp_iff`** — when the comparison gives 0.
-/

namespace G7

/-- `tolower` -/
def tolower (c : Byte) : Byte := if ch 'A' ≤ c ∧ c ≤ ch 'Z' then c + 32 else c

/-- `xstrtolower`, on a string of fewer than 4096 characters. -/
def xstrtolower (s : CStr) : CStr := s.map tolower

/-- `0 == strcasecmp(s1, s2)` -/
def strcasecmp (s1 s2 : CStr) : Bool := s1.map tolower == s2.map tolower

/-- `0 == xstricmp(s1, s2)` -/
def xstricmp (s1 s2 : CStr) : Bool :=
  if 4096 ≤ s1.length ∨ 4096 ≤ s2.length then false else xstrtolower s1 == xstrtolower s2

/-- **`strcasecmp` compares what is left when the case is folded.** -/
theorem strcasecmp_iff {s1 s2 : CStr} :
    strcasecmp s1 s2 = true ↔ s1.map tolower = s2.map tolower := beq_iff_eq

/-- **So does `xstricmp`** for strings of its length. -/
theorem xstricmp_iff {s1 s2 : CStr} (h : s2.length < 4096) :
    xstricmp s1 s2 = true ↔ s1.map tolower = s2.map tolower := by
  have hlen : s1.map tolower = s2.map tolower → s1.length = s2.length := fun heq => by
    simpa using congrArg List.length heq
  rw [xstricmp]
  split_ifs with hlong
  · refine iff_of_false (by simp) fun heq => ?_
    have := hlen heq
    omega
  · exact beq_iff_eq

end G7
