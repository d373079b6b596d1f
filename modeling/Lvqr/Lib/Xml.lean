import Mathlib.Data.List.Basic

set_option autoImplicit false

-- XML 1.0 documents of elements, attributes and text: what a reader that checks
-- well-formedness makes of them, and what is written so that it reads back. There are
-- no comments, sections, instructions or definitions of entities.
namespace Xml

-- The nodes from one on to the end of its parent. An empty-element tag has a node of
-- its own, so that a document knows how it was written.
inductive Content where
  | empty
  | text (text : String) (rest : Content)
  | single (name : String) (attributes : List (String × String)) (rest : Content)
  | element (name : String) (attributes : List (String × String)) (children rest : Content)
deriving DecidableEq, Repr

structure Element where
  name : String
  attributes : List (String × String)
  children : Content
deriving DecidableEq, Repr

def isChar (char : Char) : Bool :=
  let code := char.toNat
  code = 0x9 || code = 0xA || code = 0xD || (0x20 ≤ code && code ≤ 0xD7FF) || (0xE000 ≤ code && code ≤ 0xFFFD) ||
    (0x10000 ≤ code && code ≤ 0x10FFFF)

def isSpace (char : Char) : Bool := char = ' ' || char = '\t' || char = '\n' || char = '\r'

-- Of the name characters only the ASCII ones.
def isNameStart (char : Char) : Bool := char.isAlpha || char = '_' || char = ':'

def isNameChar (char : Char) : Bool := isNameStart char || char.isDigit || char = '-' || char = '.'

def isName : List Char → Bool
  | [] => false
  | first :: rest => isNameStart first && rest.all isNameChar

def escapeChar (char : Char) : List Char :=
  if char = '<' then ['&', 'l', 't', ';']
  else if char = '>' then ['&', 'g', 't', ';']
  else if char = '&' then ['&', 'a', 'm', 'p', ';']
  else if char = '"' then ['&', 'q', 'u', 'o', 't', ';']
  else if char = '\'' then ['&', 'a', 'p', 'o', 's', ';']
  else [char]

def escape (text : List Char) : List Char := text.flatMap escapeChar

def unescape : List Char → Option (List Char)
  | [] => some []
  | '&' :: 'l' :: 't' :: ';' :: rest => (unescape rest).map ('<' :: ·)
  | '&' :: 'g' :: 't' :: ';' :: rest => (unescape rest).map ('>' :: ·)
  | '&' :: 'a' :: 'm' :: 'p' :: ';' :: rest => (unescape rest).map ('&' :: ·)
  | '&' :: 'q' :: 'u' :: 'o' :: 't' :: ';' :: rest => (unescape rest).map ('"' :: ·)
  | '&' :: 'a' :: 'p' :: 'o' :: 's' :: ';' :: rest => (unescape rest).map ('\'' :: ·)
  | '&' :: _ => none
  | char :: rest => (unescape rest).map (char :: ·)

-- The end of a CDATA section may not stand in text.
def endsSection : List Char → Bool
  | ']' :: ']' :: '>' :: _ => true
  | _ :: rest => endsSection rest
  | [] => false

-- Every line end is a line feed before anything else is read.
def normalizeEnds : List Char → List Char
  | [] => []
  | '\r' :: '\n' :: rest => '\n' :: normalizeEnds rest
  | '\r' :: rest => '\n' :: normalizeEnds rest
  | char :: rest => char :: normalizeEnds rest

def normalizeValue (raw : List Char) : List Char := raw.map fun char => if isSpace char then ' ' else char

def readName (input : List Char) : Option (String × List Char) :=
  let name := input.takeWhile isNameChar
  if isName name then some (String.ofList name, input.dropWhile isNameChar) else none

def readValue (input : List Char) : Option (String × List Char) :=
  let raw := input.takeWhile (· ≠ '"')
  match input.dropWhile (· ≠ '"') with
  | [] => none
  | _ :: rest =>
      if raw.contains '<' then none
      else (unescape (normalizeValue raw)).map fun value => (String.ofList value, rest)

def readAttributes : Nat → List Char → Option (List (String × String) × List Char)
  | 0, _ => none
  | fuel + 1, input =>
      match input.dropWhile isSpace with
      | '/' :: rest => some ([], '/' :: rest)
      | '>' :: rest => some ([], '>' :: rest)
      | start =>
          if start.length = input.length then none
          else do
            let (name, rest) ← readName start
            match rest with
            | '=' :: '"' :: rest =>
                let (value, rest) ← readValue rest
                let (attributes, rest) ← readAttributes fuel rest
                return ((name, value) :: attributes, rest)
            | _ => none

def readText (input : List Char) : Option (String × List Char) :=
  let raw := input.takeWhile (· ≠ '<')
  if endsSection raw then none
  else (unescape raw).map fun text => (String.ofList text, input.dropWhile (· ≠ '<'))

def readEnd (name : String) : List Char → Option (List Char)
  | '<' :: '/' :: input => do
      let (closed, rest) ← readName input
      match rest.dropWhile isSpace with
      | '>' :: rest => if closed = name then some rest else none
      | _ => none
  | _ => none

-- The fuel is a bound on the number of nodes.
def readContent : Nat → List Char → Option (Content × List Char)
  | 0, _ => none
  | _ + 1, [] => some (.empty, [])
  | _ + 1, '<' :: '/' :: rest => some (.empty, '<' :: '/' :: rest)
  | fuel + 1, '<' :: input => do
      let (name, rest) ← readName input
      let (attributes, rest) ← readAttributes (rest.length + 1) rest
      if (attributes.map Prod.fst).Nodup then
        match rest with
        | '/' :: '>' :: rest =>
            let (more, rest) ← readContent fuel rest
            return (.single name attributes more, rest)
        | '>' :: rest =>
            let (children, rest) ← readContent fuel rest
            let rest ← readEnd name rest
            let (more, rest) ← readContent fuel rest
            return (.element name attributes children more, rest)
        | _ => none
      else none
  | fuel + 1, input => do
      let (text, rest) ← readText input
      let (more, rest) ← readContent fuel rest
      return (.text text more, rest)

def Content.isBlank : Content → Bool
  | .empty => true
  | .text chars .empty => chars.toList.all isSpace
  | _ => false

def DECLARATION : List Char := "<?xml version=\"1.0\" encoding=\"UTF-8\"?>".toList

-- A document is one element behind the declaration.
def parse (input : List Char) : Option Element := do
  let text := normalizeEnds input
  if text.all isChar ∧ DECLARATION <+: text then
    let body := (text.drop DECLARATION.length).dropWhile isSpace
    let (content, rest) ← readContent (body.length + 1) body
    match content, rest with
    | .single name attributes more, [] => if more.isBlank then some ⟨name, attributes, .empty⟩ else none
    | .element name attributes children more, [] => if more.isBlank then some ⟨name, attributes, children⟩ else none
    | _, _ => none
  else none

def writeAttribute (pair : String × String) : List Char :=
  ' ' :: (pair.1.toList ++ '=' :: '"' :: (escape pair.2.toList ++ ['"']))

def Content.write : Content → List Char
  | .empty => []
  | .text chars rest => escape chars.toList ++ rest.write
  | .single name attributes rest => '<' :: (name.toList ++ (attributes.flatMap writeAttribute ++ '/' :: '>' :: rest.write))
  | .element name attributes children rest =>
      '<' :: (name.toList ++ (attributes.flatMap writeAttribute ++
        '>' :: (children.write ++ '<' :: '/' :: (name.toList ++ '>' :: rest.write))))

def isTextChar (char : Char) : Bool := isChar char && char != '\r'

def isValueChar (char : Char) : Bool := isTextChar char && char != '\t' && char != '\n'

-- A character of an attribute that is written as it stands.
def isPlainChar (char : Char) : Bool := isValueChar char && escapeChar char = [char]

def Content.isText : Content → Bool
  | .text _ _ => true
  | _ => false

structure Canonical (attributes : List (String × String)) : Prop where
  names : ∀ pair ∈ attributes, isName pair.1.toList = true
  values : ∀ pair ∈ attributes, pair.2.toList.all isValueChar = true
  distinct : (attributes.map Prod.fst).Nodup

-- Names are names, text is not empty and not split, and no character is rewritten by
-- the reader.
def Content.Canonical : Content → Prop
  | .empty => True
  | .text chars rest => chars.toList ≠ [] ∧ chars.toList.all isTextChar = true ∧ rest.isText = false ∧ rest.Canonical
  | .single name attributes rest => isName name.toList = true ∧ Xml.Canonical attributes ∧ rest.Canonical
  | .element name attributes children rest =>
      isName name.toList = true ∧ Xml.Canonical attributes ∧ children.Canonical ∧ rest.Canonical

section Escaping

theorem unescape_plain (char : Char) (rest : List Char) (plain : char ≠ '&') :
    unescape (char :: rest) = (unescape rest).map (char :: ·) := by
  rw [unescape] <;> intros <;> simp_all

theorem unescape_char (char : Char) (rest : List Char) :
    unescape (escapeChar char ++ rest) = (unescape rest).map (char :: ·) := by
  by_cases less : char = '<'
  · subst char
    rfl
  by_cases greater : char = '>'
  · subst char
    rfl
  by_cases ampersand : char = '&'
  · subst char
    rfl
  by_cases quote : char = '"'
  · subst char
    rfl
  by_cases apostrophe : char = '\''
  · subst char
    rfl
  have plain : escapeChar char = [char] := by
    simp [escapeChar, less, greater, ampersand, quote, apostrophe]
  rw [plain, List.singleton_append, unescape_plain char rest ampersand]

theorem unescape_escape (text : List Char) : unescape (escape text) = some text := by
  induction text with
  | nil => rfl
  | cons char text ih =>
      rw [escape] at ih
      rw [escape, List.flatMap_cons, unescape_char, ih, Option.map_some]

def ENTITY_CHARS : List Char := ['&', 'l', 't', ';', 'g', 'a', 'm', 'p', 'q', 'u', 'o', 's']

-- What escaping writes for a character is the character itself or an entity.
theorem mem_escape_char (char written : Char) (member : written ∈ escapeChar char) :
    written = char ∧ char ≠ '<' ∧ char ≠ '>' ∧ char ≠ '"' ∨ written ∈ ENTITY_CHARS := by
  unfold escapeChar at member
  split at member
  · exact .inr ((show ∀ c ∈ ['&', 'l', 't', ';'], c ∈ ENTITY_CHARS by simp [ENTITY_CHARS]) written member)
  · split at member
    · exact .inr ((show ∀ c ∈ ['&', 'g', 't', ';'], c ∈ ENTITY_CHARS by simp [ENTITY_CHARS]) written member)
    · split at member
      · exact .inr ((show ∀ c ∈ ['&', 'a', 'm', 'p', ';'], c ∈ ENTITY_CHARS by simp [ENTITY_CHARS]) written member)
      · split at member
        · exact .inr ((show ∀ c ∈ ['&', 'q', 'u', 'o', 't', ';'], c ∈ ENTITY_CHARS by simp [ENTITY_CHARS]) written member)
        · split at member
          · exact .inr ((show ∀ c ∈ ['&', 'a', 'p', 'o', 's', ';'], c ∈ ENTITY_CHARS by simp [ENTITY_CHARS]) written member)
          · rename_i less greater ampersand quote apostrophe
            exact .inl ⟨List.mem_singleton.mp member, less, greater, quote⟩

theorem escape_avoids (text : List Char) : '<' ∉ escape text ∧ '>' ∉ escape text ∧ '"' ∉ escape text := by
  have written : ∀ special ∈ ['<', '>', '"'], special ∉ escape text := by
    intro special isSpecial member
    obtain ⟨char, -, inside⟩ := List.mem_flatMap.mp member
    rcases mem_escape_char char special inside with ⟨rfl, less, greater, quote⟩ | entity
    · simp only [List.mem_cons, List.not_mem_nil, or_false] at isSpecial
      exact isSpecial.elim less fun other => other.elim greater quote
    · exact (show ∀ special ∈ ['<', '>', '"'], special ∉ ENTITY_CHARS by simp [ENTITY_CHARS]) special isSpecial entity
  exact ⟨written '<' (by decide), written '>' (by decide), written '"' (by decide)⟩

theorem escape_all (kind : Char → Bool) (entity : ENTITY_CHARS.all kind = true) (text : List Char)
    (all : text.all kind = true) : (escape text).all kind = true := by
  rw [List.all_eq_true] at all entity ⊢
  intro written member
  obtain ⟨char, known, inside⟩ := List.mem_flatMap.mp member
  rcases mem_escape_char char written inside with ⟨rfl, -⟩ | isEntity
  · exact all written known
  · exact entity written isEntity

theorem escape_nonempty (text : List Char) (some : text ≠ []) : escape text ≠ [] := by
  intro empty
  have read := unescape_escape text
  rw [empty] at read
  exact some (Option.some.inj read).symm

end Escaping

section Spans

variable (kind : Char → Bool) (front rest : List Char)

-- A span ends where its kind of characters does.
theorem span_append (all : front.all kind = true) (stop : ∀ char ∈ rest.head?, kind char = false) :
    (front ++ rest).takeWhile kind = front ∧ (front ++ rest).dropWhile kind = rest := by
  rw [List.all_eq_true] at all
  have taken : rest.takeWhile kind = [] ∧ rest.dropWhile kind = rest := by
    cases rest with
    | nil => exact ⟨rfl, rfl⟩
    | cons char rest =>
        have other := stop char rfl
        exact ⟨List.takeWhile_cons_of_neg (by simp [other]), List.dropWhile_cons_of_neg (by simp [other])⟩
  rw [List.takeWhile_append_of_pos all, List.dropWhile_append_of_pos all, taken.1, taken.2, List.append_nil]
  exact ⟨rfl, rfl⟩

theorem skip_none (stop : ∀ char ∈ rest.head?, kind char = false) : rest.dropWhile kind = rest :=
  (span_append kind [] rest rfl stop).2

end Spans

theorem name_chars (chars : List Char) (named : isName chars = true) : chars.all isNameChar = true := by
  cases chars with
  | nil => cases named
  | cons first rest =>
      rw [isName, Bool.and_eq_true] at named
      rw [List.all_cons, isNameChar, named.1, named.2]
      rfl

theorem read_name_written (name : String) (rest : List Char) (named : isName name.toList = true)
    (stop : ∀ char ∈ rest.head?, isNameChar char = false) : readName (name.toList ++ rest) = some (name, rest) := by
  obtain ⟨taken, left⟩ := span_append isNameChar name.toList rest (name_chars _ named) stop
  rw [readName, taken, left, if_pos named, String.ofList_toList]

theorem value_char (char : Char) (value : isValueChar char = true) :
    isTextChar char = true ∧ char ≠ '\t' ∧ char ≠ '\n' := by
  simpa [isValueChar, and_assoc] using value

theorem text_char (char : Char) (text : isTextChar char = true) : isChar char = true ∧ char ≠ '\r' := by
  simpa [isTextChar] using text

theorem normalize_value (raw : List Char) (all : raw.all isValueChar = true) : normalizeValue raw = raw := by
  have same : ∀ char ∈ raw, (if isSpace char then ' ' else char) = id char := by
    intro char member
    obtain ⟨text, notTab, notFeed⟩ := value_char char (List.all_eq_true.mp all char member)
    obtain ⟨-, notReturn⟩ := text_char char text
    split
    · rename_i space
      simp only [isSpace, notTab, notFeed, notReturn, decide_false, Bool.or_false, decide_eq_true_eq] at space
      exact space.symm
    · rfl
  rw [normalizeValue, List.map_congr_left same, List.map_id]

theorem normalize_ends (text : List Char) (plain : '\r' ∉ text) : normalizeEnds text = text := by
  induction text with
  | nil => rfl
  | cons char text ih =>
      obtain ⟨other, rest⟩ := not_or.mp (mt List.mem_cons.mpr plain)
      rw [normalizeEnds, ih rest]
      all_goals
        intros
        exact other (by simp_all)

theorem alpha_codes (char : Char) : char.isAlpha =
    (decide (char.val ≥ 'A'.val ∧ char.val ≤ 'Z'.val) || (char.val ≥ 'a'.val && char.val ≤ 'z'.val)) := rfl

theorem name_char_text (char : Char) (kind : isNameChar char = true) : isTextChar char = true := by
  have code : 45 ≤ char.toNat ∧ char.toNat ≤ 122 := by
    simp only [isNameChar, isNameStart, alpha_codes, Char.isDigit, Bool.or_eq_true, Bool.and_eq_true, decide_eq_true_eq,
      ge_iff_le, UInt32.le_iff_toNat_le] at kind
    rcases kind with (((((upper | lower) | rfl) | rfl) | digit) | rfl) | rfl
    · exact ⟨Nat.le_trans (by decide) upper.1, Nat.le_trans upper.2 (by decide)⟩
    · exact ⟨Nat.le_trans (by decide) lower.1, Nat.le_trans lower.2 (by decide)⟩
    · decide
    · decide
    · exact ⟨Nat.le_trans (by decide) digit.1, Nat.le_trans digit.2 (by decide)⟩
    · decide
    · decide
  have notReturn : char ≠ '\r' := by
    rintro rfl
    exact absurd code.1 (by decide)
  have range : 0x20 ≤ char.toNat ∧ char.toNat ≤ 0xD7FF := by omega
  simp [isTextChar, isChar, range, notReturn]

theorem plain_char (char : Char) (plain : isPlainChar char = true) :
    isValueChar char = true ∧ escapeChar char = [char] := by
  simpa [isPlainChar] using plain

theorem escape_same (text : List Char) (same : ∀ char ∈ text, escapeChar char = [char]) : escape text = text := by
  rw [escape, List.flatMap_congr same, List.flatMap_singleton']

theorem escape_plain (text : List Char) (plain : text.all isPlainChar = true) : escape text = text :=
  escape_same text fun char member => (plain_char char (List.all_eq_true.mp plain char member)).2

theorem digit_plain (char : Char) (digit : char.isDigit = true) : isPlainChar char = true := by
  have apart : ∀ other : Char, other.isDigit = false → char ≠ other := by
    rintro other isOther rfl
    rw [digit] at isOther
    cases isOther
  have text : isTextChar char = true := name_char_text char (by simp [isNameChar, digit])
  simp [isPlainChar, isValueChar, text, escapeChar, apart '<' (by decide), apart '>' (by decide), apart '&' (by decide),
    apart '"' (by decide), apart '\'' (by decide), apart '\t' (by decide), apart '\n' (by decide)]

theorem read_value_written (value : String) (rest : List Char) (all : value.toList.all isValueChar = true) :
    readValue (escape value.toList ++ '"' :: rest) = some (value, rest) := by
  obtain ⟨noLess, -, noQuote⟩ := escape_avoids value.toList
  have unquoted : (escape value.toList).all (· ≠ '"') = true := by
    rw [List.all_eq_true]
    intro char member
    exact decide_eq_true fun quote => noQuote (quote ▸ member)
  obtain ⟨taken, left⟩ := span_append (· ≠ '"') (escape value.toList) ('"' :: rest) unquoted (by simp)
  have kept := normalize_value _ (escape_all isValueChar (by decide) value.toList all)
  have absent : (escape value.toList).contains '<' = false := by
    rw [List.contains_eq_mem]
    exact decide_eq_false noLess
  rw [readValue, taken, left]
  dsimp only
  rw [absent, if_neg Bool.false_ne_true, kept, unescape_escape, Option.map_some, String.ofList_toList]

theorem no_section_end (raw : List Char) (plain : '>' ∉ raw) : endsSection raw = false := by
  induction raw with
  | nil => rfl
  | cons char raw ih =>
      obtain ⟨-, rest⟩ := not_or.mp (mt List.mem_cons.mpr plain)
      rw [endsSection]
      · exact ih rest
      · intros
        simp_all

theorem read_text_written (value : String) (rest : List Char) (stop : ∀ char ∈ rest.head?, char = '<') :
    readText (escape value.toList ++ rest) = some (value, rest) := by
  obtain ⟨noLess, noGreater, -⟩ := escape_avoids value.toList
  have plain : (escape value.toList).all (· ≠ '<') = true := by
    rw [List.all_eq_true]
    intro char member
    exact decide_eq_true fun less => noLess (less ▸ member)
  have ends : ∀ char ∈ rest.head?, decide (char ≠ '<') = false := fun char first => by simp [stop char first]
  obtain ⟨taken, left⟩ := span_append (· ≠ '<') (escape value.toList) rest plain ends
  rw [readText, taken, left, no_section_end _ noGreater, if_neg Bool.false_ne_true, unescape_escape, Option.map_some,
    String.ofList_toList]

theorem read_end_written (name : String) (rest : List Char) (named : isName name.toList = true) :
    readEnd name ('<' :: '/' :: (name.toList ++ '>' :: rest)) = some rest := by
  have read := read_name_written name ('>' :: rest) named (by simp; decide)
  have skipped := skip_none isSpace ('>' :: rest) (by simp; decide)
  simp only [readEnd, read, Option.bind_eq_bind, Option.bind_some, skipped, if_true]

theorem name_start_plain (char : Char) (start : isNameStart char = true) :
    isSpace char = false ∧ char ≠ '/' ∧ char ≠ '>' ∧ char ≠ '<' := by
  have apart : ∀ other : Char, isNameStart other = false → char ≠ other := by
    rintro other isOther rfl
    rw [start] at isOther
    cases isOther
  refine ⟨?_, apart '/' (by decide), apart '>' (by decide), apart '<' (by decide)⟩
  simp [isSpace, apart ' ' (by decide), apart '\t' (by decide), apart '\n' (by decide), apart '\r' (by decide)]

theorem name_starts (chars : List Char) (named : isName chars = true) :
    ∃ first rest, chars = first :: rest ∧ isNameStart first = true := by
  cases chars with
  | nil => cases named
  | cons first rest =>
      rw [isName, Bool.and_eq_true] at named
      exact ⟨first, rest, rfl, named.1⟩

theorem read_attributes_written (attributes : List (String × String)) (rest : List Char) (fuel : Nat)
    (names : ∀ pair ∈ attributes, isName pair.1.toList = true)
    (values : ∀ pair ∈ attributes, pair.2.toList.all isValueChar = true)
    (ends : ∃ more, rest = '/' :: more ∨ rest = '>' :: more) (enough : attributes.length < fuel) :
    readAttributes fuel (attributes.flatMap writeAttribute ++ rest) = some (attributes, rest) := by
  induction attributes generalizing fuel with
  | nil =>
      obtain ⟨fuel, rfl⟩ := Nat.exists_eq_add_of_lt enough
      obtain ⟨more, rfl | rfl⟩ := ends
      · simp [readAttributes, isSpace]
      · simp [readAttributes, isSpace]
  | cons pair attributes ih =>
      obtain ⟨name, value⟩ := pair
      obtain ⟨fuel, rfl⟩ := Nat.exists_eq_succ_of_ne_zero (Nat.ne_zero_of_lt enough)
      obtain ⟨named, others⟩ := List.forall_mem_cons.mp names
      obtain ⟨valued, otherValues⟩ := List.forall_mem_cons.mp values
      obtain ⟨first, letters, chars, start⟩ := name_starts name.toList named
      obtain ⟨solid, notSlash, notGreater, -⟩ := name_start_plain first start
      have later := ih fuel others otherValues (by simpa using enough)
      generalize isMore : attributes.flatMap writeAttribute ++ rest = more at later
      have input : (((name, value) :: attributes).flatMap writeAttribute) ++ rest =
          ' ' :: (name.toList ++ '=' :: '"' :: (escape value.toList ++ '"' :: more)) := by
        rw [List.flatMap_cons, List.append_assoc, isMore]
        simp [writeAttribute]
      have skipped : (' ' :: (name.toList ++ '=' :: '"' :: (escape value.toList ++ '"' :: more))).dropWhile isSpace =
          name.toList ++ '=' :: '"' :: (escape value.toList ++ '"' :: more) := by
        rw [List.dropWhile_cons_of_pos (by decide)]
        refine skip_none isSpace _ ?_
        rw [chars]
        simpa using solid
      have readN := read_name_written name ('=' :: '"' :: (escape value.toList ++ '"' :: more)) named (by simp; decide)
      have readV := read_value_written value more valued
      rw [input, readAttributes, skipped]
      split
      · rename_i slash
        rw [chars] at slash
        exact absurd (List.cons.inj slash).1 notSlash
      · rename_i greater
        rw [chars] at greater
        exact absurd (List.cons.inj greater).1 notGreater
      · rw [if_neg (by simp), readN]
        simp only [Option.bind_eq_bind, Option.bind_some, readV, later, Option.pure_def]

theorem attributes_length (attributes : List (String × String)) :
    attributes.length ≤ (attributes.flatMap writeAttribute).length := by
  induction attributes with
  | nil => exact Nat.zero_le 0
  | cons pair attributes ih =>
      rw [List.flatMap_cons, List.length_append, writeAttribute, List.length_cons, List.length_cons]
      omega

-- A tag up to its end, as it is written in front of either end.
theorem read_tag_written (name : String) (attributes : List (String × String)) (rest : List Char)
    (named : isName name.toList = true) (canonical : Canonical attributes)
    (ends : ∃ more, rest = '/' :: more ∨ rest = '>' :: more) :
    readName (name.toList ++ (attributes.flatMap writeAttribute ++ rest)) =
        some (name, attributes.flatMap writeAttribute ++ rest) ∧
      readAttributes ((attributes.flatMap writeAttribute ++ rest).length + 1) (attributes.flatMap writeAttribute ++ rest) =
        some (attributes, rest) := by
  have stop : ∀ char ∈ (attributes.flatMap writeAttribute ++ rest).head?, isNameChar char = false := by
    cases attributes with
    | nil =>
        obtain ⟨more, rfl | rfl⟩ := ends
        · simp; decide
        · simp; decide
    | cons pair attributes =>
        rw [List.flatMap_cons, writeAttribute]
        simp
        decide
  have many := attributes_length attributes
  refine ⟨read_name_written name _ named stop, ?_⟩
  refine read_attributes_written attributes rest _ canonical.names canonical.values ends ?_
  rw [List.length_append]
  omega

def Content.size : Content → Nat
  | .empty => 0
  | .text _ rest => rest.size + 1
  | .single _ _ rest => rest.size + 1
  | .element _ _ children rest => children.size + rest.size + 1

theorem read_content_written (content : Content) (canonical : content.Canonical) (rest : List Char) (fuel : Nat)
    (ends : rest = [] ∨ ∃ more, rest = '<' :: '/' :: more) (enough : content.size < fuel) :
    readContent fuel (content.write ++ rest) = some (content, rest) := by
  induction content generalizing rest fuel with
  | empty =>
      obtain ⟨fuel, rfl⟩ := Nat.exists_eq_succ_of_ne_zero (Nat.ne_zero_of_lt enough)
      rcases ends with rfl | ⟨more, rfl⟩
      · rfl
      · rfl
  | text chars next ih =>
      obtain ⟨fuel, rfl⟩ := Nat.exists_eq_succ_of_ne_zero (Nat.ne_zero_of_lt enough)
      obtain ⟨some, legal, notText, nextCanonical⟩ := canonical
      have later := ih nextCanonical rest fuel ends (by simpa [Content.size] using enough)
      obtain ⟨first, letters, escaped⟩ := List.exists_cons_of_ne_nil (escape_nonempty chars.toList some)
      have notLess : first ≠ '<' := by
        rintro rfl
        exact (escape_avoids chars.toList).1 (escaped ▸ List.mem_cons_self)
      have stop : ∀ char ∈ (next.write ++ rest).head?, char = '<' := by
        cases next with
        | empty =>
            rcases ends with rfl | ⟨more, rfl⟩
            · simp [Content.write]
            · simp [Content.write]
        | text => cases notText
        | single => simp [Content.write]
        | element => simp [Content.write]
      have read := read_text_written chars (next.write ++ rest) stop
      have input : (Content.text chars next).write ++ rest = escape chars.toList ++ (next.write ++ rest) := by
        simp [Content.write]
      rw [input]
      rw [escaped, List.cons_append] at read ⊢
      rw [readContent]
      · simp only [read, Option.bind_eq_bind, Option.bind_some, later, Option.pure_def]
      · exact List.cons_ne_nil _ _
      · intro more less
        exact notLess (List.cons.inj less).1
      · intro more less
        exact notLess (List.cons.inj less).1
  | single name attributes next ih =>
      obtain ⟨fuel, rfl⟩ := Nat.exists_eq_succ_of_ne_zero (Nat.ne_zero_of_lt enough)
      obtain ⟨named, attributesCanonical, nextCanonical⟩ := canonical
      have later := ih nextCanonical rest fuel ends (by simpa [Content.size] using enough)
      obtain ⟨first, letters, chars, start⟩ := name_starts name.toList named
      obtain ⟨-, notSlash, -, -⟩ := name_start_plain first start
      obtain ⟨readN, readA⟩ := read_tag_written name attributes ('/' :: '>' :: (next.write ++ rest)) named
        attributesCanonical ⟨_, .inl rfl⟩
      have input : (Content.single name attributes next).write ++ rest =
          '<' :: (name.toList ++ (attributes.flatMap writeAttribute ++ '/' :: '>' :: (next.write ++ rest))) := by
        simp [Content.write]
      rw [input, readContent]
      · simp only [readN, Option.bind_eq_bind, Option.bind_some, readA, if_pos attributesCanonical.distinct, later,
          Option.pure_def]
      · intro more slash
        rw [chars] at slash
        exact notSlash (List.cons.inj slash).1
  | element name attributes children next ihChildren ihNext =>
      obtain ⟨fuel, rfl⟩ := Nat.exists_eq_succ_of_ne_zero (Nat.ne_zero_of_lt enough)
      obtain ⟨named, attributesCanonical, childrenCanonical, nextCanonical⟩ := canonical
      have sizes : children.size < fuel ∧ next.size < fuel := by
        rw [Content.size] at enough
        omega
      generalize isClosing : '<' :: '/' :: (name.toList ++ '>' :: (next.write ++ rest)) = closing
      have inside := ihChildren childrenCanonical closing fuel (.inr ⟨_, isClosing.symm⟩) sizes.1
      have later := ihNext nextCanonical rest fuel ends sizes.2
      have closed : readEnd name closing = some (next.write ++ rest) := isClosing ▸ read_end_written name _ named
      obtain ⟨first, letters, chars, start⟩ := name_starts name.toList named
      obtain ⟨-, notSlash, -, -⟩ := name_start_plain first start
      obtain ⟨readN, readA⟩ := read_tag_written name attributes ('>' :: (children.write ++ closing)) named
        attributesCanonical ⟨_, .inr rfl⟩
      have input : (Content.element name attributes children next).write ++ rest =
          '<' :: (name.toList ++ (attributes.flatMap writeAttribute ++ '>' :: (children.write ++ closing))) := by
        simp [Content.write, ← isClosing]
      rw [input, readContent]
      · simp only [readN, Option.bind_eq_bind, Option.bind_some, readA, if_pos attributesCanonical.distinct, inside,
          closed, later, Option.pure_def]
      · intro more slash
        rw [chars] at slash
        exact notSlash (List.cons.inj slash).1

theorem size_le_length (content : Content) (canonical : content.Canonical) : content.size ≤ content.write.length := by
  induction content with
  | empty => exact Nat.zero_le 0
  | text chars next ih =>
      obtain ⟨some, -, -, nextCanonical⟩ := canonical
      have shorter := ih nextCanonical
      have written := List.length_pos_of_ne_nil (escape_nonempty chars.toList some)
      rw [Content.size, Content.write, List.length_append]
      omega
  | single name attributes next ih =>
      have shorter := ih canonical.2.2
      simp only [Content.size, Content.write, List.length_cons, List.length_append]
      omega
  | element name attributes children next ihChildren ihNext =>
      have inner := ihChildren canonical.2.2.1
      have shorter := ihNext canonical.2.2.2
      simp only [Content.size, Content.write, List.length_cons, List.length_append]
      omega

theorem name_text (name : String) (named : isName name.toList = true) : name.toList.all isTextChar = true := by
  have all := List.all_eq_true.mp (name_chars _ named)
  rw [List.all_eq_true]
  exact fun char member => name_char_text char (all char member)

theorem attributes_text (attributes : List (String × String)) (canonical : Canonical attributes) :
    (attributes.flatMap writeAttribute).all isTextChar = true := by
  rw [List.all_flatMap, List.all_eq_true]
  intro pair member
  have named := name_text pair.1 (canonical.names pair member)
  have value : pair.2.toList.all isTextChar = true := by
    rw [List.all_eq_true]
    exact fun char inside => (value_char char (List.all_eq_true.mp (canonical.values pair member) char inside)).1
  have escaped := escape_all isTextChar (by decide) _ value
  have signs : isTextChar ' ' = true ∧ isTextChar '=' = true ∧ isTextChar '"' = true := by decide
  simp [writeAttribute, named, escaped, signs]

theorem write_text (content : Content) (canonical : content.Canonical) : content.write.all isTextChar = true := by
  have signs : isTextChar '<' = true ∧ isTextChar '/' = true ∧ isTextChar '>' = true := by decide
  induction content with
  | empty => rfl
  | text chars next ih =>
      obtain ⟨-, text, -, nextCanonical⟩ := canonical
      rw [Content.write, List.all_append, escape_all isTextChar (by decide) _ text, ih nextCanonical]
      rfl
  | single name attributes next ih =>
      obtain ⟨named, attributesCanonical, nextCanonical⟩ := canonical
      simp only [Content.write, List.all_cons, List.all_append, signs, name_text name named,
        attributes_text attributes attributesCanonical, ih nextCanonical, Bool.and_self]
  | element name attributes children next ihChildren ihNext =>
      obtain ⟨named, attributesCanonical, childrenCanonical, nextCanonical⟩ := canonical
      simp only [Content.write, List.all_cons, List.all_append, signs, name_text name named,
        attributes_text attributes attributesCanonical, ihChildren childrenCanonical, ihNext nextCanonical, Bool.and_self]

-- What is written of an element, behind the declaration and with a line end behind it, is
-- read as the element.
theorem parse_written (name : String) (attributes : List (String × String)) (children : Content)
    (canonical : (Content.element name attributes children (.text "\n" .empty)).Canonical) :
    parse (DECLARATION ++ '\n' :: (Content.element name attributes children (.text "\n" .empty)).write) =
      some ⟨name, attributes, children⟩ := by
  generalize isContent : Content.element name attributes children (.text "\n" .empty) = content at canonical
  have text := write_text content canonical
  have read := read_content_written content canonical [] (content.write.length + 1) (.inl rfl)
    (Nat.lt_succ_of_le (size_le_length content canonical))
  rw [List.append_nil] at read
  have whole : (DECLARATION ++ '\n' :: content.write).all isTextChar = true := by
    rw [List.all_append, List.all_cons, text]
    decide
  have ends := normalize_ends (DECLARATION ++ '\n' :: content.write) fun inside =>
    (text_char _ (List.all_eq_true.mp whole _ inside)).2 rfl
  have legal : (DECLARATION ++ '\n' :: content.write).all isChar = true := by
    rw [List.all_eq_true]
    exact fun char inside => (text_char char (List.all_eq_true.mp whole char inside)).1
  have body : ((DECLARATION ++ '\n' :: content.write).drop DECLARATION.length).dropWhile isSpace = content.write := by
    rw [List.drop_left, List.dropWhile_cons_of_pos (by decide)]
    refine skip_none isSpace _ ?_
    rw [← isContent, Content.write]
    simp
    decide
  rw [parse, ends]
  dsimp only
  rw [if_pos ⟨legal, List.prefix_append _ _⟩, body, read, ← isContent]
  rfl

-- Text in front of nodes, which joins the text that they begin with.
def Content.prepend (front : String) : Content → Content
  | .text chars rest => .text (front ++ chars) rest
  | content => if front = "" then content else .text front content

-- The elements among the nodes, whatever text stands between them.
def Content.elements : Content → List Element
  | .empty => []
  | .text _ rest => rest.elements
  | .single name attributes rest => ⟨name, attributes, .empty⟩ :: rest.elements
  | .element name attributes children rest => ⟨name, attributes, children⟩ :: rest.elements

def Content.characters : Content → String
  | .empty => ""
  | .text chars rest => chars ++ rest.characters
  | .single _ _ rest => rest.characters
  | .element _ _ _ rest => rest.characters

-- Of fields that may be without a value, the attributes are those that have one.
def present (fields : List (String × Option String)) : List (String × String) :=
  fields.filterMap fun (name, value) => value.map (name, ·)

def writeField (field : String × Option String) : List Char :=
  field.2.elim [] fun value => writeAttribute (field.1, value)

structure Legal (fields : List (String × Option String)) : Prop where
  names : ∀ field ∈ fields, isName field.1.toList = true
  values : ∀ field ∈ fields, ∀ value ∈ field.2, value.toList.all isValueChar = true
  distinct : (fields.map Prod.fst).Nodup

theorem prepend_node (front : String) (content : Content) (node : content.isText = false) :
    content.prepend front = if front = "" then content else .text front content := by
  cases content with
  | text => cases node
  | empty => rfl
  | single => rfl
  | element => rfl

-- What holds of nodes with a text in front holds of them behind any text.
theorem prepend_cases (kind : Content → Content → Prop) (front : String)
    (empty : ∀ content, front = "" → kind content content)
    (joined : ∀ chars rest, kind (.text chars rest) (.text (front ++ chars) rest))
    (placed : ∀ content, front ≠ "" → content.isText = false → kind content (.text front content))
    (content : Content) :
    kind content (content.prepend front) := by
  cases isText : content.isText with
  | true =>
      cases content with
      | text chars rest => exact joined chars rest
      | empty => cases isText
      | single => cases isText
      | element => cases isText
  | false =>
      rw [prepend_node front content isText]
      split
      · rename_i nothing
        exact empty content nothing
      · rename_i something
        exact placed content something isText

theorem elements_prepend (front : String) (content : Content) : (content.prepend front).elements = content.elements :=
  prepend_cases (fun before after => after.elements = before.elements) front (fun _ _ => rfl) (fun _ _ => rfl)
    (fun _ _ _ => rfl) content

theorem characters_prepend (front : String) (content : Content) :
    (content.prepend front).characters = front ++ content.characters := by
  refine prepend_cases (fun before after => after.characters = front ++ before.characters) front ?_ ?_ ?_ content
  · rintro content rfl
    rw [String.empty_append]
  · exact fun chars rest => String.append_assoc
  · exact fun content _ _ => rfl

theorem write_prepend (front : String) (content : Content) :
    (content.prepend front).write = escape front.toList ++ content.write := by
  refine prepend_cases (fun before after => after.write = escape front.toList ++ before.write) front ?_ ?_ ?_ content
  · rintro content rfl
    rfl
  · intro chars rest
    rw [Content.write, Content.write, String.toList_append, escape, escape, escape, List.flatMap_append, List.append_assoc]
  · exact fun content _ _ => rfl

theorem canonical_prepend (front : String) (content : Content) (text : front.toList.all isTextChar = true)
    (canonical : content.Canonical) : (content.prepend front).Canonical := by
  refine prepend_cases (fun before after => before.Canonical → after.Canonical) front ?_ ?_ ?_ content canonical
  · exact fun content _ kept => kept
  · rintro chars rest ⟨some, all, notText, kept⟩
    refine ⟨?_, ?_, notText, kept⟩
    · rw [String.toList_append]
      exact List.append_ne_nil_of_right_ne_nil _ some
    · rw [String.toList_append, List.all_append, text, all]
      rfl
  · exact fun content something notText kept => ⟨mt String.toList_eq_nil_iff.mp something, text, notText, kept⟩

theorem write_present (fields : List (String × Option String)) :
    (present fields).flatMap writeAttribute = fields.flatMap writeField := by
  induction fields with
  | nil => rfl
  | cons field fields ih =>
      obtain ⟨name, value⟩ := field
      rw [List.flatMap_cons, ← ih]
      cases value with
      | none => rfl
      | some value => rfl

theorem mem_present (fields : List (String × Option String)) (pair : String × String) :
    pair ∈ present fields ↔ (pair.1, some pair.2) ∈ fields := by
  rw [present, List.mem_filterMap]
  constructor
  · rintro ⟨⟨name, value⟩, member, isPair⟩
    obtain ⟨value, rfl, rfl⟩ := Option.map_eq_some_iff.mp isPair
    exact member
  · exact fun member => ⟨_, member, rfl⟩

theorem names_present (fields : List (String × Option String)) :
    ((present fields).map Prod.fst).Sublist (fields.map Prod.fst) := by
  induction fields with
  | nil => exact List.Sublist.slnil
  | cons field fields ih =>
      obtain ⟨name, value⟩ := field
      cases value with
      | none => exact ih.cons name
      | some value => exact ih.cons_cons name

theorem legal_names (names : List String) (fields : List (String × Option String)) (same : fields.map Prod.fst = names)
    (named : names.all (isName ·.toList) = true) (distinct : names.Nodup)
    (values : ∀ field ∈ fields, ∀ value ∈ field.2, value.toList.all isValueChar = true) : Legal fields where
  names field member := List.all_eq_true.mp named field.1 (same ▸ List.mem_map_of_mem member)
  values := values
  distinct := same ▸ distinct

theorem canonical_present (fields : List (String × Option String)) (legal : Legal fields) :
    Canonical (present fields) where
  names pair member := legal.names _ ((mem_present fields pair).mp member)
  values pair member := legal.values _ ((mem_present fields pair).mp member) pair.2 rfl
  distinct := (names_present fields).nodup legal.distinct

theorem lookup_present (fields : List (String × Option String)) (distinct : (fields.map Prod.fst).Nodup)
    (name : String) (value : Option String) (member : (name, value) ∈ fields) : (present fields).lookup name = value := by
  induction fields with
  | nil => cases member
  | cons field fields ih =>
      obtain ⟨first, firstValue⟩ := field
      obtain ⟨fresh, others⟩ := List.nodup_cons.mp distinct
      have absent : (present fields).lookup first = none := by
        rw [List.lookup_eq_none_iff]
        intro pair inside
        have named := (names_present fields).subset (List.mem_map_of_mem inside)
        exact bne_iff_ne.mpr fun same => fresh (same ▸ named)
      rcases List.mem_cons.mp member with same | later
      · obtain ⟨rfl, rfl⟩ := Prod.mk.inj same
        cases value with
        | none => exact absent
        | some value => exact List.lookup_cons_self
      · have apart : name ≠ first := by
          rintro rfl
          exact fresh (List.mem_map.mpr ⟨_, later, rfl⟩)
        rw [← ih others later]
        cases firstValue with
        | none => rfl
        | some other =>
            show ((first, other) :: present fields).lookup name = _
            rw [List.lookup_cons, beq_false_of_ne apart]

-- Nodes that are written as the text, in front of whatever follows them.
structure Written (text : List Char) (nodes : Content → Content) : Prop where
  writes : ∀ rest, (nodes rest).write = text ++ rest.write
  canonical : ∀ rest, rest.Canonical → (nodes rest).Canonical

section Writing

theorem Written.append {first second : List Char} {left right : Content → Content} (isFirst : Written first left)
    (isSecond : Written second right) : Written (first ++ second) fun rest => left (right rest) where
  writes rest := by rw [isFirst.writes, isSecond.writes, List.append_assoc]
  canonical rest kept := isFirst.canonical _ (isSecond.canonical rest kept)

theorem Written.text (chars : String) (text : chars.toList.all isTextChar = true) :
    Written (escape chars.toList) (Content.prepend chars) where
  writes rest := write_prepend chars rest
  canonical rest kept := canonical_prepend chars rest text kept

theorem Written.single (name : String) (fields : List (String × Option String)) (named : isName name.toList = true)
    (legal : Legal fields) :
    Written ('<' :: (name.toList ++ (fields.flatMap writeField ++ ['/', '>']))) (Content.single name (present fields)) where
  writes rest := by simp [Content.write, write_present]
  canonical rest kept := ⟨named, canonical_present fields legal, kept⟩

theorem Written.element (name : String) (fields : List (String × Option String)) {inner : List Char}
    {children : Content → Content} (named : isName name.toList = true) (legal : Legal fields)
    (inside : Written inner children) :
    Written ('<' :: (name.toList ++ (fields.flatMap writeField ++ '>' :: (inner ++ '<' :: '/' :: (name.toList ++ ['>'])))))
      (Content.element name (present fields) (children .empty)) where
  writes rest := by simp [Content.write, write_present, inside.writes]
  canonical rest kept := ⟨named, canonical_present fields legal, inside.canonical _ trivial, kept⟩

theorem Written.each {Item : Type} {nodes : Item → Content → Content} {items : List Item} {texts : List (List Char)}
    (each : List.Forall₂ (fun item text => Written text (nodes item)) items texts) :
    Written texts.flatten fun rest => items.foldr nodes rest := by
  induction each with
  | nil => exact ⟨fun rest => rfl, fun rest kept => kept⟩
  | cons head _ ih => exact head.append ih

end Writing

theorem elements_each {Item : Type} (items : List Item) (nodes : Item → Content → Content) (element : Item → Element)
    (each : ∀ item rest, (nodes item rest).elements = element item :: rest.elements) (rest : Content) :
    (items.foldr nodes rest).elements = items.map element ++ rest.elements := by
  induction items with
  | nil => rfl
  | cons item items ih => rw [List.foldr_cons, each, ih, List.map_cons, List.cons_append]

end Xml
