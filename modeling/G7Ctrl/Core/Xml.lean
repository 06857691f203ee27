import G7Ctrl.Core.Bytes

/-!
# Well-formed XML

The grammar of XML 1.0 for documents without a document type, over bytes: a byte from 128 on is
part of some character outside of ASCII.  A derivation carries the tree that the text stands for,
with character data and references resolved; line ends are taken as they are.

* `XmlElement`, `XmlContent` — an element, and what stands between its tags.
* `XmlDocument` — a document and its root.
* **`XmlContent.text`**, **`XmlContent.elem`**, **`XmlContent.leaf`**, **`XmlAttrs.attr`** — how
  texts without markup, elements and attributes are put in front of what follows.
* **`XmlDocument.declared`** — a document that begins with a declaration.
* **`XmlDocument.root_name_of_declared`**, **`XmlDocument.root_name_of_end`** — the name of the root
  at the beginning and at the end of the text.
-/

namespace G7

/-! ## Characters, names and references -/

/-- `S` -/
def isXmlSpace (c : Byte) : Bool := c == ch ' ' || c == 9 || c == 10 || c == 13

/-- `Char` -/
def isXmlChar (c : Byte) : Bool := decide (32 ≤ c) || isXmlSpace c

/-- `NameStartChar` -/
def isXmlNameStart (c : Byte) : Bool :=
  (ch 'a' ≤ c && c ≤ ch 'z') || (ch 'A' ≤ c && c ≤ ch 'Z') || c == ch '_' || c == ch ':' ||
    128 ≤ c

/-- `NameChar` -/
def isXmlNameChar (c : Byte) : Bool :=
  isXmlNameStart c || (ch '0' ≤ c && c ≤ ch '9') || c == ch '-' || c == ch '.'

/-- `Name` -/
def isXmlName : CStr → Bool
  | [] => false
  | c :: cs => isXmlNameStart c && cs.all isXmlNameChar

/-- White space, or nothing. -/
abbrev XmlSpace (s : CStr) : Prop := s.all isXmlSpace = true

/-- The character of a number, in UTF-8. -/
def xmlCharRef (n : ℕ) : CStr := String.utf8EncodeChar (Char.ofNat n)

/-- The number of a character that may be referred to. -/
def IsXmlCharRef (n : ℕ) : Prop := n.isValidChar ∧ (n = 9 ∨ n = 10 ∨ n = 13 ∨ 32 ≤ n)

/-- `Reference`, with what it stands for. -/
inductive XmlRef : CStr → CStr → Prop where
  | lt : XmlRef (str "&lt;") (str "<")
  | gt : XmlRef (str "&gt;") (str ">")
  | amp : XmlRef (str "&amp;") (str "&")
  | quot : XmlRef (str "&quot;") (str "\"")
  | apos : XmlRef (str "&apos;") (str "'")
  | dec {ds : CStr} {n : ℕ} : ds ≠ [] → baseValue 10 ds = some n → IsXmlCharRef n →
      XmlRef (str "&#" ++ ds ++ str ";") (xmlCharRef n)
  | hex {ds : CStr} {n : ℕ} : ds ≠ [] → baseValue 16 ds = some n → IsXmlCharRef n →
      XmlRef (str "&#x" ++ ds ++ str ";") (xmlCharRef n)

/-! ## Comments and processing instructions -/

/-- `Comment` -/
inductive XmlComment : CStr → Prop where
  | mk {s : CStr} : s.all isXmlChar = true → ¬ str "--" <:+: s ++ str "-" →
      XmlComment (str "<!--" ++ s ++ str "-->")

/-- A name that is reserved as the target of an instruction. -/
def isXmlReserved (target : CStr) : Bool :=
  target.map (fun c => if ch 'A' ≤ c && c ≤ ch 'Z' then c + 32 else c) == str "xml"

/-- `PI` -/
inductive XmlPI : CStr → Prop where
  | mk {target s : CStr} : isXmlName target = true → isXmlReserved target = false →
      (∀ c ∈ s.head?, isXmlSpace c = true) → s.all isXmlChar = true → ¬ str "?>" <:+: s →
      XmlPI (str "<?" ++ target ++ s ++ str "?>")

/-- `Misc*` -/
inductive XmlMisc : CStr → Prop where
  | nil : XmlMisc []
  | space {c : Byte} {s : CStr} : isXmlSpace c = true → XmlMisc s → XmlMisc (c :: s)
  | comment {c s : CStr} : XmlComment c → XmlMisc s → XmlMisc (c ++ s)
  | pi {p s : CStr} : XmlPI p → XmlMisc s → XmlMisc (p ++ s)

/-! ## Elements -/

/-- The value of an attribute between quotes `q`. -/
inductive XmlAttValue (q : Byte) : CStr → CStr → Prop where
  | nil : XmlAttValue q [] []
  | char {c : Byte} {s v : CStr} : isXmlChar c = true → c ≠ q → c ≠ ch '<' → c ≠ ch '&' →
      XmlAttValue q s v → XmlAttValue q (c :: s) ((if isXmlSpace c then ch ' ' else c) :: v)
  | ref {r b s v : CStr} : XmlRef r b → XmlAttValue q s v → XmlAttValue q (r ++ s) (b ++ v)

/-- `(S Attribute)*`, no name twice. -/
inductive XmlAttrs : CStr → List (CStr × CStr) → Prop where
  | nil : XmlAttrs [] []
  | cons {ws name ws₁ ws₂ raw v s : CStr} {q : Byte} {attrs : List (CStr × CStr)} : ws ≠ [] →
      XmlSpace ws → isXmlName name = true → XmlSpace ws₁ → XmlSpace ws₂ →
      q = ch '"' ∨ q = ch '\'' → XmlAttValue q raw v → XmlAttrs s attrs →
      name ∉ attrs.map Prod.fst →
      XmlAttrs (ws ++ (name ++ (ws₁ ++ ch '=' :: (ws₂ ++ q :: (raw ++ q :: s)))))
        ((name, v) :: attrs)

/-- What a document stands for. -/
inductive XmlNode where
  | text (s : CStr)
  | element (name : CStr) (attrs : List (CStr × CStr)) (children : List XmlNode)

/-- A piece of text in front of other nodes. -/
def consText (s : CStr) (ns : List XmlNode) : List XmlNode :=
  match s, ns with
  | [], ns => ns
  | c :: cs, .text t :: ns => .text (c :: cs ++ t) :: ns
  | c :: cs, ns => .text (c :: cs) :: ns

/-- The start of a tag without what closes it. -/
def xmlTag (name attrs ws : CStr) : CStr := str "<" ++ (name ++ (attrs ++ ws))

/-- `ETag` -/
def xmlEnd (name ws : CStr) : CStr := str "</" ++ (name ++ (ws ++ str ">"))

mutual

/-- `element` -/
inductive XmlElement : CStr → XmlNode → Prop where
  | empty {name atts ws : CStr} {attrs : List (CStr × CStr)} : isXmlName name = true →
      XmlAttrs atts attrs → XmlSpace ws →
      XmlElement (xmlTag name atts ws ++ str "/>") (.element name attrs [])
  | full {name atts ws ws' s : CStr} {attrs : List (CStr × CStr)} {ns : List XmlNode} :
      isXmlName name = true → XmlAttrs atts attrs → XmlSpace ws → XmlSpace ws' →
      XmlContent s ns →
      XmlElement (xmlTag name atts ws ++ (str ">" ++ (s ++ xmlEnd name ws')))
        (.element name attrs ns)

/-- `content` -/
inductive XmlContent : CStr → List XmlNode → Prop where
  | nil : XmlContent [] []
  | char {c : Byte} {s : CStr} {ns : List XmlNode} : isXmlChar c = true → c ≠ ch '<' →
      c ≠ ch '&' → ¬ str "]]>" <+: c :: s → XmlContent s ns →
      XmlContent (c :: s) (consText [c] ns)
  | ref {r b s : CStr} {ns : List XmlNode} : XmlRef r b → XmlContent s ns →
      XmlContent (r ++ s) (consText b ns)
  | cdata {t s : CStr} {ns : List XmlNode} : t.all isXmlChar = true → ¬ str "]]>" <:+: t →
      XmlContent s ns → XmlContent (str "<![CDATA[" ++ t ++ str "]]>" ++ s) (consText t ns)
  | comment {c s : CStr} {ns : List XmlNode} : XmlComment c → XmlContent s ns →
      XmlContent (c ++ s) ns
  | pi {p s : CStr} {ns : List XmlNode} : XmlPI p → XmlContent s ns → XmlContent (p ++ s) ns
  | element {e s : CStr} {n : XmlNode} {ns : List XmlNode} : XmlElement e n → XmlContent s ns →
      XmlContent (e ++ s) (n :: ns)

end

/-! ## Documents -/

/-- `XMLDecl?` -/
inductive XmlDecl : CStr → Prop where
  | none : XmlDecl []
  | decl {atts ws : CStr} {attrs : List (CStr × CStr)} : XmlAttrs atts attrs → ch '?' ∉ atts →
      attrs.head? = some (str "version", str "1.0") →
      (∀ n ∈ attrs.tail.map Prod.fst, n = str "encoding" ∨ n = str "standalone") → XmlSpace ws →
      XmlDecl (str "<?xml" ++ (atts ++ (ws ++ str "?>")))

/-- `document` -/
inductive XmlDocument : CStr → XmlNode → Prop where
  | mk {decl m e m' : CStr} {root : XmlNode} : XmlDecl decl → XmlMisc m → XmlElement e root →
      XmlMisc m' → XmlDocument (decl ++ (m ++ (e ++ m'))) root

/-! ## Building content -/

/-- A character that stands for itself between tags, whatever follows. -/
def isXmlText (c : Byte) : Bool := isXmlChar c && c != ch '<' && c != ch '&' && c != ch ']'

/-- A character that also stands for itself between double quotes. -/
def isXmlPlain (c : Byte) : Bool := isXmlText c && c != ch '"' && (c == ch ' ' || !isXmlSpace c)

lemma isXmlText_of_plain {c : Byte} (h : isXmlPlain c = true) : isXmlText c = true := by
  simp only [isXmlPlain, Bool.and_eq_true] at h
  exact h.1.1

lemma consText_cons (c : Byte) (cs : CStr) (ns : List XmlNode) :
    consText (c :: cs) ns = consText [c] (consText cs ns) := by
  cases cs with
  | nil => rfl
  | cons d ds =>
      cases ns with
      | nil => rfl
      | cons n ns => cases n <;> rfl

/-- **Text without markup** in front of a content. -/
theorem XmlContent.text {t s : CStr} {ns : List XmlNode} (ht : t.all isXmlText = true)
    (hs : XmlContent s ns) : XmlContent (t ++ s) (consText t ns) := by
  induction t with
  | nil => exact hs
  | cons c cs ih =>
      rw [List.all_cons, Bool.and_eq_true] at ht
      have hc := ht.1
      simp only [isXmlText, Bool.and_eq_true, bne_iff_ne] at hc
      obtain ⟨⟨⟨hchar, hlt⟩, hamp⟩, hbracket⟩ := hc
      have hend : ¬ str "]]>" <+: c :: (cs ++ s) := by
        rintro ⟨rest, hrest⟩
        exact hbracket (List.cons.inj hrest).1.symm
      rw [consText_cons]
      exact XmlContent.char hchar hlt hamp hend (ih ht.2)

/-- White space before a text. -/
theorem XmlContent.blank (w : String) {s : CStr} {ns : List XmlNode}
    (hw : (str w).all isXmlText = true) (hs : XmlContent s ns) :
    XmlContent (str w ++ s) (consText (str w) ns) :=
  XmlContent.text hw hs

/-- **An element** in front of a content. -/
theorem XmlContent.elem (name : String) {atts t s : CStr} {attrs : List (CStr × CStr)}
    {ns ms : List XmlNode} (hname : isXmlName (str name) = true) (hatts : XmlAttrs atts attrs)
    (ht : XmlContent t ns) (hs : XmlContent s ms) :
    XmlContent (xmlTag (str name) atts [] ++ (str ">" ++ (t ++ (xmlEnd (str name) [] ++ s))))
      (.element (str name) attrs ns :: ms) := by
  have hnil : XmlSpace [] := rfl
  have h := XmlContent.element (XmlElement.full hname hatts hnil hnil ht) hs
  simpa only [List.append_assoc] using h

/-- **An element without content** in front of a content. -/
theorem XmlContent.emptyElem (name ws : String) {atts s : CStr} {attrs : List (CStr × CStr)}
    {ms : List XmlNode} (hname : isXmlName (str name) = true) (hatts : XmlAttrs atts attrs)
    (hws : XmlSpace (str ws)) (hs : XmlContent s ms) :
    XmlContent (xmlTag (str name) atts (str ws) ++ (str "/>" ++ s))
      (.element (str name) attrs [] :: ms) := by
  have h := XmlContent.element (XmlElement.empty hname hatts hws) hs
  simpa only [List.append_assoc] using h

/-- `<name>text</name>` -/
def leafText (name : String) (t : CStr) : CStr :=
  xmlTag (str name) [] [] ++ (str ">" ++ (t ++ xmlEnd (str name) []))

/-- An element that holds a text. -/
def leafNode (name : String) (t : CStr) : XmlNode := .element (str name) [] (consText t [])

/-- **An element that holds a text** in front of a content. -/
theorem XmlContent.leaf (name : String) {t s : CStr} {ns : List XmlNode}
    (hname : isXmlName (str name) = true) (ht : t.all isXmlText = true) (hs : XmlContent s ns) :
    XmlContent (leafText name t ++ s) (leafNode name t :: ns) := by
  have htext : XmlContent t (consText t []) := by
    have h := XmlContent.text ht XmlContent.nil
    rwa [List.append_nil] at h
  have h : XmlContent (xmlTag (str name) [] [] ++ (str ">" ++ (t ++ (xmlEnd (str name) [] ++ s))))
      (leafNode name t :: ns) :=
    XmlContent.elem name hname XmlAttrs.nil htext hs
  simpa only [leafText, List.append_assoc] using h

/-- Plain text is the value of an attribute. -/
lemma XmlAttValue.plain {v : CStr} (hv : v.all isXmlPlain = true) :
    XmlAttValue (ch '"') v v := by
  induction v with
  | nil => exact XmlAttValue.nil
  | cons c cs ih =>
      rw [List.all_cons, Bool.and_eq_true] at hv
      have hc := hv.1
      simp only [isXmlPlain, isXmlText, Bool.and_eq_true, Bool.or_eq_true, bne_iff_ne, beq_iff_eq,
        Bool.not_eq_true'] at hc
      obtain ⟨⟨⟨⟨⟨hchar, hlt⟩, hamp⟩, -⟩, hquote⟩, hspace⟩ := hc
      have h := XmlAttValue.char hchar hquote hlt hamp (ih hv.2)
      have hself : (if isXmlSpace c then ch ' ' else c) = c := by
        rcases hspace with rfl | hspace
        · rfl
        · rw [if_neg (by simp [hspace])]
      rwa [hself] at h

/-- `name="v"` after white space, in front of other attributes. -/
def attrText (ws name : String) (v s : CStr) : CStr :=
  str ws ++ (str name ++ (str "=\"" ++ (v ++ (str "\"" ++ s))))

/-- **An attribute** in front of others. -/
theorem XmlAttrs.attr (ws name : String) {v s : CStr} {attrs : List (CStr × CStr)}
    (hws : str ws ≠ []) (hspace : XmlSpace (str ws)) (hname : isXmlName (str name) = true)
    (hv : v.all isXmlPlain = true) (hs : XmlAttrs s attrs)
    (hnew : str name ∉ attrs.map Prod.fst) :
    XmlAttrs (attrText ws name v s) ((str name, v) :: attrs) := by
  have h : XmlAttrs (str ws ++ (str name ++ ([] ++ ch '=' ::
      ([] ++ ch '"' :: (v ++ ch '"' :: s))))) ((str name, v) :: attrs) :=
    XmlAttrs.cons hws hspace hname rfl rfl (Or.inl rfl) (XmlAttValue.plain hv) hs hnew
  exact h

/-- `version="1.0" encoding="UTF-8"` -/
def declText : CStr := attrText " " "version" (str "1.0") (attrText " " "encoding" (str "UTF-8") [])

/-- **A document that begins with a declaration**, the root on the next line, and nothing after
that line. -/
theorem XmlDocument.declared (name : String) {atts t : CStr} {attrs : List (CStr × CStr)}
    {ns : List XmlNode} (hname : isXmlName (str name) = true) (hatts : XmlAttrs atts attrs)
    (ht : XmlContent t ns) :
    XmlDocument (str "<?xml" ++ (declText ++ (str "?>" ++ (str "\n" ++
      (xmlTag (str name) atts [] ++ (str ">" ++ (t ++ (xmlEnd (str name) [] ++ str "\n"))))))))
      (.element (str name) attrs ns) := by
  have hnil : XmlSpace [] := rfl
  have hline : XmlMisc (str "\n") := XmlMisc.space rfl XmlMisc.nil
  have hdecl : XmlAttrs declText [(str "version", str "1.0"), (str "encoding", str "UTF-8")] :=
    XmlAttrs.attr " " "version" (by decide) rfl rfl rfl
      (XmlAttrs.attr " " "encoding" (by decide) rfl rfl rfl XmlAttrs.nil List.not_mem_nil)
      (show str "version" ∉ [str "encoding"] by decide)
  have h := XmlDocument.mk (XmlDecl.decl hdecl (by decide) rfl (by simp) hnil) hline
    (XmlElement.full hname hatts hnil hnil ht) hline
  simpa only [List.append_assoc, List.nil_append] using h

/-! ## The name of the root -/

/-- A text is cut in one way only before its first character that is not in a class. -/
lemma span_unique {α : Type*} {p : α → Bool} {a b : α} {u v : List α} (ha : p a = false)
    (hb : p b = false) : ∀ {s t : List α}, s.all p = true → t.all p = true →
      s ++ a :: u = t ++ b :: v → s = t ∧ a = b ∧ u = v
  | [], [], _, _, h => ⟨rfl, (List.cons.inj h).1, (List.cons.inj h).2⟩
  | [], c :: t, _, ht, h => by
      rw [List.all_cons, Bool.and_eq_true, ← (List.cons.inj h).1, ha] at ht
      exact absurd ht.1 (by simp)
  | c :: s, [], hs, _, h => by
      rw [List.all_cons, Bool.and_eq_true, (List.cons.inj h).1, hb] at hs
      exact absurd hs.1 (by simp)
  | c :: s, d :: t, hs, ht, h => by
      rw [List.all_cons, Bool.and_eq_true] at hs ht
      obtain ⟨hst, hab, huv⟩ := span_unique ha hb hs.2 ht.2 (List.cons.inj h).2
      exact ⟨by rw [(List.cons.inj h).1, hst], hab, huv⟩

/-- The name of a node that is an element. -/
def XmlNode.name : XmlNode → CStr
  | .text _ => []
  | .element name _ _ => name

lemma all_of_isXmlName {name : CStr} (h : isXmlName name = true) :
    name.all isXmlNameChar = true := by
  cases name with
  | nil => rfl
  | cons c cs =>
      rw [isXmlName, Bool.and_eq_true] at h
      rw [List.all_cons, Bool.and_eq_true]
      exact ⟨by rw [isXmlNameChar, h.1]; rfl, h.2⟩

lemma ne_nil_of_isXmlName {name : CStr} (h : isXmlName name = true) : name ≠ [] := by
  rintro rfl
  simp [isXmlName] at h

/-- White space is no part of a name. -/
lemma not_isXmlNameChar_of_space {c : Byte} (h : isXmlSpace c = true) :
    isXmlNameChar c = false := by
  have hall := forall_byte (p := fun c => !isXmlSpace c || !isXmlNameChar c) (by decide +kernel) c
  simpa [h] using hall

/-- What follows the name in a tag does not continue it. -/
lemma exists_after_name {atts ws : CStr} {attrs : List (CStr × CStr)} (hatts : XmlAttrs atts attrs)
    (hws : XmlSpace ws) {c : Byte} (hc : isXmlNameChar c = false) (s : CStr) :
    ∃ d t, atts ++ (ws ++ c :: s) = d :: t ∧ isXmlNameChar d = false := by
  have hspace : ∀ {w : CStr}, XmlSpace w → ∀ r : CStr,
      (∃ d t, r = d :: t ∧ isXmlNameChar d = false) →
        ∃ d t, w ++ r = d :: t ∧ isXmlNameChar d = false := by
    intro w hw r hr
    cases w with
    | nil => exact hr
    | cons d ds =>
        rw [XmlSpace, List.all_cons, Bool.and_eq_true] at hw
        exact ⟨d, ds ++ r, rfl, not_isXmlNameChar_of_space hw.1⟩
  have hend := hspace hws (c :: s) ⟨c, s, rfl, hc⟩
  cases hatts with
  | nil => exact hend
  | cons hne hw hname hw₁ hw₂ hq hv hrest hnew =>
      rename_i w name' w₁ w₂ raw v s' q attrs'
      obtain ⟨d, ds, rfl⟩ := List.exists_cons_of_ne_nil hne
      rw [XmlSpace, List.all_cons, Bool.and_eq_true] at hw
      exact ⟨d, _, rfl, not_isXmlNameChar_of_space hw.1⟩

/-- How an element begins. -/
lemma XmlElement.begins {e : CStr} {root : XmlNode} (h : XmlElement e root) :
    isXmlName root.name = true ∧
      ∃ d t, e = ch '<' :: (root.name ++ d :: t) ∧ isXmlNameChar d = false := by
  cases h with
  | empty hname hatts hws =>
      rename_i name atts ws attrs
      obtain ⟨d, t, htext, hd⟩ := exists_after_name hatts hws (c := ch '/') (by decide) (str ">")
      refine ⟨hname, d, t, ?_, hd⟩
      show ch '<' :: (name ++ (atts ++ ws)) ++ str "/>" = ch '<' :: (name ++ d :: t)
      rw [← htext, List.cons_append, List.append_assoc, List.append_assoc]
      rfl
  | full hname hatts hws hws' hs =>
      rename_i name atts ws ws' s attrs ns
      obtain ⟨d, t, htext, hd⟩ := exists_after_name hatts hws (c := ch '>') (by decide)
        (s ++ xmlEnd name ws')
      refine ⟨hname, d, t, ?_, hd⟩
      show ch '<' :: (name ++ (atts ++ ws)) ++ (str ">" ++ (s ++ xmlEnd name ws'))
        = ch '<' :: (name ++ d :: t)
      rw [← htext, List.cons_append, List.append_assoc, List.append_assoc]
      rfl

/-- What is neither an element nor a declaration does not look like the beginning of one. -/
lemma XmlMisc.eq_nil_of_tag {m r u : CStr} {d : Byte} (hm : XmlMisc m)
    (hd : isXmlNameStart d = true) (h : m ++ r = ch '<' :: d :: u) : m = [] := by
  cases hm with
  | nil => rfl
  | space hc _ =>
      rw [(List.cons.inj h).1] at hc
      exact absurd hc (by decide)
  | comment hc _ =>
      cases hc
      have hbang : ch '!' = d := (List.cons.inj (List.cons.inj h).2).1
      rw [← hbang] at hd
      exact absurd hd (by decide)
  | pi hp _ =>
      cases hp
      have hmark : ch '?' = d := (List.cons.inj (List.cons.inj h).2).1
      rw [← hmark] at hd
      exact absurd hd (by decide)

/-- An instruction is not a declaration. -/
lemma not_xmlPI_declared {p r body : CStr} {b : Byte} (hp : XmlPI p)
    (hb : isXmlNameChar b = false) (h : p ++ r = str "<?xml" ++ b :: body) : False := by
  cases hp with
  | @mk target s hname hreserved hspace _ _ =>
      have htext : target ++ (s ++ (str "?>" ++ r)) = str "xml" ++ b :: body := by
        have h' : str "<?" ++ (target ++ (s ++ (str "?>" ++ r)))
            = str "<?" ++ (str "xml" ++ b :: body) := by
          simp only [List.append_assoc] at h
          exact h
        exact List.append_cancel_left h'
      have hrest : ∃ d t, s ++ (str "?>" ++ r) = d :: t ∧ isXmlNameChar d = false := by
        cases s with
        | nil => exact ⟨ch '?', _, rfl, by decide⟩
        | cons d ds => exact ⟨d, _, rfl, not_isXmlNameChar_of_space (hspace d rfl)⟩
      obtain ⟨d, t, hdt, hd⟩ := hrest
      rw [hdt] at htext
      have hxml := (span_unique hd hb (all_of_isXmlName hname) (by decide) htext).1
      rw [hxml] at hreserved
      exact absurd hreserved (by decide)

/-- Nothing but an element begins like a tag. -/
lemma not_declared_of_element {e r u : CStr} {root : XmlNode} (he : XmlElement e root)
    (h : e ++ r = ch '<' :: ch '?' :: u) : False := by
  obtain ⟨hroot, d, t, hbegins, -⟩ := he.begins
  obtain ⟨n, ns, hns⟩ := List.exists_cons_of_ne_nil (ne_nil_of_isXmlName hroot)
  rw [hns, isXmlName, Bool.and_eq_true] at hroot
  rw [hbegins, hns] at h
  rw [show n = ch '?' from (List.cons.inj (List.cons.inj h).2).1] at hroot
  exact absurd hroot.1 (by decide)

/-- The root on a line of its own. -/
lemma root_name_of_line {m e m' name y : CStr} {c : Byte} {root : XmlNode} (hm : XmlMisc m)
    (he : XmlElement e root) (hname : isXmlName name = true) (hc : isXmlNameChar c = false)
    (h : m ++ (e ++ m') = 10 :: ch '<' :: (name ++ c :: y)) : root.name = name := by
  obtain ⟨hroot, d, t, hbegins, hd⟩ := he.begins
  obtain ⟨n, ns, hns⟩ := List.exists_cons_of_ne_nil (ne_nil_of_isXmlName hname)
  have hn : isXmlNameStart n = true := by
    rw [hns, isXmlName, Bool.and_eq_true] at hname
    exact hname.1
  -- the element begins after the line feed
  have helem : e ++ m' = ch '<' :: (name ++ c :: y) := by
    cases hm with
    | nil =>
        rw [hbegins] at h
        exact absurd (List.cons.inj h).1 (by decide)
    | @space c' m _ hm =>
        have htag : m ++ (e ++ m') = ch '<' :: (name ++ c :: y) := (List.cons.inj h).2
        have hnil : m = [] := hm.eq_nil_of_tag hn (by rw [htag, hns]; rfl)
        rwa [hnil] at htag
    | comment hcomment _ =>
        cases hcomment
        exact absurd (List.cons.inj h).1 (by decide)
    | pi hp _ =>
        cases hp
        exact absurd (List.cons.inj h).1 (by decide)
  rw [hbegins, List.cons_append, List.append_assoc] at helem
  exact (span_unique hd hc (all_of_isXmlName hroot) (all_of_isXmlName hname)
    (List.cons.inj helem).2).1

/-- **The name of the root at the beginning**: that of the first tag after a declaration. -/
theorem XmlDocument.root_name_of_declared {doc : CStr} {root : XmlNode} (h : XmlDocument doc root)
    {body name y : CStr} {b c : Byte} (hb : isXmlNameChar b = false) (hbody : ch '?' ∉ b :: body)
    (hname : isXmlName name = true) (hc : isXmlNameChar c = false)
    (hdoc : doc = str "<?xml" ++ (b :: body ++ (str "?>\n<" ++ (name ++ c :: y)))) :
    root.name = name := by
  cases h with
  | mk hdecl hm he hm' =>
      rename_i decl m e m'
      cases hdecl with
      | none =>
          have hmark : m ++ (e ++ m') = ch '<' :: ch '?' ::
              (str "xml" ++ (b :: body ++ (str "?>\n<" ++ (name ++ c :: y)))) := hdoc
          cases hm with
          | nil => exact (not_declared_of_element he hmark).elim
          | space hspace _ =>
              rw [show _ = ch '<' from (List.cons.inj hmark).1] at hspace
              exact absurd hspace (by decide)
          | comment hcomment _ =>
              cases hcomment
              have hbang : ch '!' = ch '?' := (List.cons.inj (List.cons.inj hmark).2).1
              exact absurd hbang (by decide)
          | @pi p s hp _ =>
              have hpi : p ++ (s ++ (e ++ m'))
                  = str "<?xml" ++ b :: (body ++ (str "?>\n<" ++ (name ++ c :: y))) := by
                rw [← List.append_assoc]
                exact hdoc
              exact (not_xmlPI_declared hp hb hpi).elim
      | @decl atts ws attrs hatts hq _ _ hws =>
          have hnoq : ∀ {w : CStr}, ch '?' ∉ w → w.all (· != ch '?') = true := by
            intro w hw
            rw [List.all_eq_true]
            rintro c' hc'
            exact bne_iff_ne.mpr fun heq => hw (heq ▸ hc')
          have hwsq : ch '?' ∉ ws := by
            intro hmem
            exact absurd (List.all_eq_true.mp hws _ hmem) (by decide)
          have hspan : (atts ++ ws) ++ ch '?' :: (str ">" ++ (m ++ (e ++ m')))
              = (b :: body) ++ ch '?' :: (str ">\n<" ++ (name ++ c :: y)) := by
            have h' : str "<?xml" ++ ((atts ++ ws) ++ ch '?' :: (str ">" ++ (m ++ (e ++ m'))))
                = str "<?xml" ++ ((b :: body) ++ ch '?' :: (str ">\n<" ++ (name ++ c :: y))) := by
              simp only [List.append_assoc] at hdoc ⊢
              exact hdoc
            exact List.append_cancel_left h'
          have hrest : m ++ (e ++ m') = 10 :: ch '<' :: (name ++ c :: y) :=
            (List.cons.inj (span_unique (p := (· != ch '?')) (by decide) (by decide)
              (hnoq (by simp [hq, hwsq])) (hnoq hbody) hspan).2.2).2
          exact root_name_of_line hm he hname hc hrest

/-- How an element ends. -/
lemma XmlElement.ends {e : CStr} {root : XmlNode} (h : XmlElement e root) :
    (∃ u, e = u ++ str "/>") ∨
      ∃ u ws, XmlSpace ws ∧ e = u ++ (str "</" ++ (root.name ++ (ws ++ str ">"))) := by
  cases h with
  | empty hname hatts hws => exact Or.inl ⟨_, rfl⟩
  | @full name atts ws ws' s attrs ns hname hatts hws hws' hs =>
      refine Or.inr ⟨xmlTag name atts ws ++ (str ">" ++ s), ws', hws', ?_⟩
      simp only [List.append_assoc]
      rfl

/-- How what is neither an element nor a declaration ends. -/
lemma XmlMisc.ends {m : CStr} (h : XmlMisc m) :
    XmlSpace m ∨ ∃ u q w, (q = ch '-' ∨ q = ch '?') ∧ XmlSpace w ∧ m = u ++ q :: ch '>' :: w := by
  induction h with
  | nil => exact Or.inl rfl
  | @space c s hc _ ih =>
      rcases ih with ih | ⟨u, q, w, hq, hw, rfl⟩
      · exact Or.inl (by rw [XmlSpace, List.all_cons, hc]; exact ih)
      · exact Or.inr ⟨c :: u, q, w, hq, hw, rfl⟩
  | @comment c s hc _ ih =>
      cases hc with
      | @mk t _ _ =>
          rcases ih with ih | ⟨u, q, w, hq, hw, rfl⟩
          · refine Or.inr ⟨str "<!--" ++ t ++ str "-", ch '-', s, Or.inl rfl, ih, ?_⟩
            simp only [List.append_assoc]
            rfl
          · exact Or.inr ⟨str "<!--" ++ t ++ str "-->" ++ u, q, w, hq, hw, by simp⟩
  | @pi p s hp _ ih =>
      cases hp with
      | @mk target t _ _ _ _ _ =>
          rcases ih with ih | ⟨u, q, w, hq, hw, rfl⟩
          · refine Or.inr ⟨str "<?" ++ target ++ t, ch '?', s, Or.inr rfl, ih, ?_⟩
            simp only [List.append_assoc]
            rfl
          · exact Or.inr ⟨str "<?" ++ target ++ t ++ str "?>" ++ u, q, w, hq, hw, by simp⟩

/-- **The name of the root at the end**: that of the last tag. -/
theorem XmlDocument.root_name_of_end {doc : CStr} {root : XmlNode} (h : XmlDocument doc root)
    {x name : CStr} (hname : isXmlName name = true) (hlast : ch '-' ∉ name.getLast?)
    (hdoc : doc = x ++ (str "</" ++ (name ++ str ">\n"))) : root.name = name := by
  cases h with
  | @mk decl m e m' _ hdecl hm he hm' =>
      have hnames : name.reverse.all isXmlNameChar = true := by
        rw [List.all_reverse]
        exact all_of_isXmlName hname
      obtain ⟨n, ns, hns⟩ := List.exists_cons_of_ne_nil
        (mt List.reverse_eq_nil_iff.mp (ne_nil_of_isXmlName hname))
      have hn : isXmlNameChar n = true := by
        rw [hns, List.all_cons, Bool.and_eq_true] at hnames
        exact hnames.1
      -- the text, read from its end up to the last tag
      have hrev : m'.reverse ++ (e.reverse ++ (decl ++ m).reverse)
          = [10] ++ ch '>' :: (name.reverse ++ ch '/' :: (ch '<' :: x.reverse)) := by
        have h' := congrArg List.reverse hdoc
        simp only [List.reverse_append, List.append_assoc] at h' ⊢
        exact h'
      rcases hm'.ends with hspace | ⟨u, q, w, hq, hw, rfl⟩
      · have hspace' : m'.reverse.all isXmlSpace = true := by rwa [List.all_reverse]
        rcases he.ends with ⟨u, rfl⟩ | ⟨u, ws, hws, rfl⟩
        · -- an element without content ends with `/>`
          have hspan : m'.reverse ++ ch '>' :: (ch '/' :: (u.reverse ++ (decl ++ m).reverse))
              = [10] ++ ch '>' :: (name.reverse ++ ch '/' :: (ch '<' :: x.reverse)) := by
            rw [← hrev]
            simp only [List.reverse_append, List.append_assoc]
            rfl
          have hrest := (span_unique (by decide) (by decide) hspace' (by decide) hspan).2.2
          rw [hns] at hrest
          rw [← (List.cons.inj hrest).1] at hn
          exact absurd hn (by decide)
        · have hspan : m'.reverse ++ ch '>' :: (ws.reverse ++ (root.name.reverse ++
              ch '/' :: (ch '<' :: (u.reverse ++ (decl ++ m).reverse))))
              = [10] ++ ch '>' :: (name.reverse ++ ch '/' :: (ch '<' :: x.reverse)) := by
            rw [← hrev]
            simp only [List.reverse_append, List.append_assoc]
            rfl
          have hrest := (span_unique (by decide) (by decide) hspace' (by decide) hspan).2.2
          obtain ⟨hroot, -⟩ := he.begins
          have hroots : root.name.reverse.all isXmlNameChar = true := by
            rw [List.all_reverse]
            exact all_of_isXmlName hroot
          obtain ⟨r, rs, hrs⟩ := List.exists_cons_of_ne_nil
            (mt List.reverse_eq_nil_iff.mp (ne_nil_of_isXmlName hroot))
          have hnospace : ∀ {c : Byte}, isXmlNameChar c = true → isXmlSpace c = false := by
            intro c hc
            by_contra hspace
            rw [not_isXmlNameChar_of_space (by simpa using hspace)] at hc
            exact absurd hc (by decide)
          have hr : isXmlNameChar r = true := by
            rw [hrs, List.all_cons, Bool.and_eq_true] at hroots
            exact hroots.1
          have hws' : ws.reverse.all isXmlSpace = true := by rwa [List.all_reverse]
          -- no space stands between the name and the bracket
          have hnil : ws.reverse = [] := by
            rw [hrs, hns] at hrest
            exact (span_unique (hnospace hr) (hnospace hn) hws' rfl
              (show ws.reverse ++ r :: _ = [] ++ n :: _ from hrest)).1
          rw [hnil, List.nil_append] at hrest
          have hreverse := (span_unique (by decide) (by decide) hroots hnames hrest).1
          exact List.reverse_inj.mp hreverse
      · -- a comment and an instruction end with another character before the bracket
        have hspan : w.reverse ++ ch '>' :: (q :: (u.reverse ++ (e.reverse ++ (decl ++ m).reverse)))
            = [10] ++ ch '>' :: (name.reverse ++ ch '/' :: (ch '<' :: x.reverse)) := by
          rw [← hrev]
          simp only [List.reverse_append, List.reverse_cons, List.append_assoc]
          rfl
        have hw' : w.reverse.all isXmlSpace = true := by rwa [List.all_reverse]
        have hrest := (span_unique (by decide) (by decide) hw' (by decide) hspan).2.2
        rw [hns] at hrest
        have hqn : q = n := (List.cons.inj hrest).1
        rcases hq with rfl | rfl
        · rw [← List.head?_reverse, hns, ← hqn] at hlast
          exact absurd rfl hlast
        · rw [← hqn] at hn
          exact absurd hn (by decide)

end G7
