import Mathlib.Data.List.Basic

set_option autoImplicit false

-- The text operations that line-based protocols are parsed with, on lists of
-- characters.
namespace Text

-- The characters with the White_Space property.
def isWhitespace (char : Char) : Bool :=
  let code := char.toNat
  (9 ≤ code && code ≤ 13) || code = 0x20 || code = 0x85 || code = 0xA0 || code = 0x1680 ||
    (0x2000 ≤ code && code ≤ 0x200A) || code = 0x2028 || code = 0x2029 || code = 0x202F || code = 0x205F ||
    code = 0x3000

def trim (text : List Char) : List Char :=
  ((text.dropWhile isWhitespace).reverse.dropWhile isWhitespace).reverse

-- The text before the first occurrence of a pattern.
def before (pattern : List Char) : List Char → Option (List Char)
  | [] => if pattern = [] then some [] else none
  | char :: text => if pattern <+: char :: text then some [] else (before pattern text).map (char :: ·)

theorem before_nil (pattern : List Char) : before pattern [] = if pattern = [] then some [] else none := rfl

theorem before_cons (pattern : List Char) (char : Char) (text : List Char) :
    before pattern (char :: text) =
      if pattern <+: char :: text then some [] else (before pattern text).map (char :: ·) := rfl

-- Lines end with LF or CR LF; what follows the last end is a line if it is not empty.
def lines : List Char → List (List Char)
  | [] => []
  | '\n' :: text => [] :: lines text
  | '\r' :: '\n' :: text => [] :: lines text
  | char :: text =>
      match lines text with
      | [] => [[char]]
      | line :: rest => (char :: line) :: rest

def words : List Char → List (List Char)
  | [] => []
  | char :: text =>
      if isWhitespace char then words text
      else
        match text with
        | [] => [[char]]
        | next :: _ =>
            if isWhitespace next then [char] :: words text
            else
              match words text with
              | [] => [[char]]
              | word :: rest => (char :: word) :: rest

def splitOnce (separator : Char) : List Char → Option (List Char × List Char)
  | [] => none
  | char :: text =>
      if char = separator then some ([], text)
      else (splitOnce separator text).map fun (front, back) => (char :: front, back)

theorem split_once_cons (separator char : Char) (text : List Char) :
    splitOnce separator (char :: text) =
      if char = separator then some ([], text)
      else (splitOnce separator text).map fun (front, back) => (char :: front, back) := rfl

-- The same at the last separator.
def rsplitOnce (separator : Char) (text : List Char) : Option (List Char × List Char) :=
  (splitOnce separator text.reverse).map fun (back, front) => (front.reverse, back.reverse)

def stripPrefix (front text : List Char) : Option (List Char) :=
  if front <+: text then some (text.drop front.length) else none

def stripSuffix (back text : List Char) : Option (List Char) :=
  if back <:+ text then some (text.take (text.length - back.length)) else none

-- An optional plus sign and decimal digits for a number below the limit.
def parseUnsigned (limit : Nat) (text : List Char) : Option Nat :=
  let digits := if text.head? = some '+' then text.tail else text
  let value := Nat.ofDigitChars 10 digits 0
  if digits ≠ [] ∧ digits.all Char.isDigit ∧ value < limit then some value else none

-- The number that the digits stand for, whatever its size.
def unsignedValue (text : List Char) : Option Nat :=
  let digits := if text.head? = some '+' then text.tail else text
  if digits ≠ [] ∧ digits.all Char.isDigit then some (Nat.ofDigitChars 10 digits 0) else none

theorem parse_unsigned_value (limit : Nat) (text : List Char) :
    parseUnsigned limit text = (unsignedValue text).filter (· < limit) := by
  simp only [parseUnsigned, unsignedValue]
  generalize (if text.head? = some '+' then text.tail else text) = digits
  by_cases written : digits ≠ [] ∧ digits.all Char.isDigit
  · rw [if_pos written, Option.filter_some]
    by_cases small : Nat.ofDigitChars 10 digits 0 < limit
    · rw [if_pos ⟨written.1, written.2, small⟩, if_pos (by simpa using small)]
    · rw [if_neg (fun all => small all.2.2), if_neg (by simpa using small)]
  · rw [if_neg written, if_neg (fun all => written ⟨all.1, all.2.1⟩)]
    rfl

def lower (text : List Char) : List Char := text.map Char.toLower

def crlf : List Char := ['\r', '\n']

-- A line without its end.
def Inline (text : List Char) : Prop := '\r' ∉ text ∧ '\n' ∉ text

def Word (text : List Char) : Prop := text ≠ [] ∧ ∀ char ∈ text, isWhitespace char = false

instance (text : List Char) : Decidable (Inline text) := inferInstanceAs (Decidable (_ ∧ _))

instance (text : List Char) : Decidable (Word text) :=
  @instDecidableAnd _ _ inferInstance (List.decidableBAll _ text)

theorem Inline.cons {char : Char} {text : List Char} (inline : Inline (char :: text)) :
    char ≠ '\r' ∧ char ≠ '\n' ∧ Inline text := by
  obtain ⟨noReturn, noFeed⟩ := inline
  simp only [List.mem_cons, not_or] at noReturn noFeed
  exact ⟨Ne.symm noReturn.1, Ne.symm noFeed.1, noReturn.2, noFeed.2⟩

theorem inline_append (first second : List Char) : Inline (first ++ second) ↔ Inline first ∧ Inline second := by
  simp only [Inline, List.mem_append, not_or]
  exact and_and_and_comm

theorem inline_digits (text : List Char) (digits : ∀ char ∈ text, char.isDigit = true) : Inline text := by
  constructor
  · intro inside
    exact absurd (digits _ inside) (by decide)
  · intro inside
    exact absurd (digits _ inside) (by decide)

theorem Word.inline {text : List Char} (word : Word text) : Inline text := by
  constructor
  · intro inside
    exact absurd (word.2 _ inside) (by decide)
  · intro inside
    exact absurd (word.2 _ inside) (by decide)

theorem before_some (pattern text front : List Char) (found : before pattern text = some front) :
    ∃ rest, text = front ++ pattern ++ rest := by
  induction text generalizing front with
  | nil =>
      rw [before_nil] at found
      split at found
      · obtain rfl := Option.some.inj found
        simp_all
      · cases found
  | cons char text ih =>
      rw [before_cons] at found
      split at found
      · rename_i starts
        obtain rfl := Option.some.inj found
        obtain ⟨rest, whole⟩ := starts
        exact ⟨rest, whole.symm⟩
      · obtain ⟨tail, later, rfl⟩ := Option.map_eq_some_iff.mp found
        obtain ⟨rest, rfl⟩ := ih tail later
        exact ⟨rest, rfl⟩

-- More text behind does not move the first occurrence.
theorem before_append (pattern text front more : List Char) (found : before pattern text = some front) :
    before pattern (text ++ more) = some front := by
  induction text generalizing front with
  | nil =>
      rw [before_nil] at found
      split at found
      · rename_i empty
        obtain rfl := Option.some.inj found
        subst empty
        cases more with
        | nil => rw [List.append_nil, before_nil, if_pos rfl]
        | cons char more => rw [List.nil_append, before_cons, if_pos List.nil_prefix]
      · cases found
  | cons char text ih =>
      rw [before_cons] at found
      rw [List.cons_append, before_cons]
      split at found
      · rename_i starts
        have stillStarts : pattern <+: char :: (text ++ more) := starts.trans (List.prefix_append (char :: text) more)
        rw [if_pos stillStarts]
        exact found
      · rename_i notHere
        obtain ⟨tail, later, rfl⟩ := Option.map_eq_some_iff.mp found
        have kept := ih tail later
        obtain ⟨rest, rfl⟩ := before_some pattern text tail later
        -- The pattern lies inside `text`, so a longer text cannot start with it earlier.
        have notHereStill : ¬ pattern <+: char :: (tail ++ pattern ++ rest ++ more) := by
          intro starts
          apply notHere
          refine List.prefix_of_prefix_length_le starts ?_ ?_
          · exact ⟨more, rfl⟩
          · simp only [List.length_cons, List.length_append]
            omega
        rw [if_neg notHereStill, kept]
        rfl

theorem before_present (pattern front rest : List Char) : before pattern (front ++ pattern ++ rest) ≠ none := by
  induction front with
  | nil =>
      cases whole : pattern ++ rest with
      | nil =>
          have nothing := (List.append_eq_nil_iff.mp whole).1
          rw [List.nil_append, whole, before_nil, if_pos nothing]
          exact Option.some_ne_none _
      | cons char text =>
          rw [List.nil_append, whole, before_cons, if_pos (by rw [← whole]; exact List.prefix_append pattern rest)]
          exact Option.some_ne_none _
  | cons char front ih =>
      rw [List.cons_append, List.cons_append, before_cons]
      split
      · exact Option.some_ne_none _
      · exact fun none => ih (Option.map_eq_none_iff.mp none)

-- The text behind the first occurrence does not decide where it is.
theorem before_cut (pattern text front : List Char) (found : before pattern text = some front) :
    before pattern (front ++ pattern) = some front := by
  obtain ⟨rest, whole⟩ := before_some pattern text front found
  obtain ⟨first, isFirst⟩ := Option.ne_none_iff_exists'.mp (before_present pattern front [])
  rw [List.append_nil] at isFirst
  have there := before_append pattern _ first rest isFirst
  rw [← whole, found] at there
  rw [isFirst, ← there]

theorem prefix_of_guarded (pattern text more : List Char) (guard : Char) (foreign : guard ∉ pattern)
    (starts : pattern <+: text ++ guard :: more) : pattern <+: text := by
  rcases List.prefix_or_prefix_of_prefix starts (List.prefix_append text (guard :: more)) with inside | ⟨tail, isLonger⟩
  · exact inside
  · obtain ⟨rest, whole⟩ := starts
    rw [← isLonger, List.append_assoc] at whole
    have behind := List.append_cancel_left whole
    cases tail with
    | nil =>
        rw [List.append_nil] at isLonger
        exact isLonger ▸ List.prefix_refl text
    | cons char more =>
        obtain rfl : char = guard := (List.cons.inj behind).1
        exact absurd (isLonger ▸ List.mem_append_right text List.mem_cons_self) foreign

-- A character foreign to the pattern keeps what stands before it apart.
theorem before_guarded (pattern text : List Char) (guard : Char) (foreign : guard ∉ pattern)
    (unended : before pattern text = none) : before pattern (text ++ guard :: pattern) = some (text ++ [guard]) := by
  induction text with
  | nil =>
      have some : pattern ≠ [] := by
        intro nothing
        rw [before_nil, if_pos nothing] at unended
        cases unended
      have notHere : ¬ pattern <+: guard :: pattern := by
        intro starts
        exact some (List.prefix_nil.mp (prefix_of_guarded pattern [] pattern guard foreign starts))
      have there : before pattern pattern = Option.some [] := by
        cases pattern with
        | nil => exact absurd rfl some
        | cons char rest => rw [before_cons, if_pos (List.prefix_refl _)]
      rw [List.nil_append, before_cons, if_neg notHere, there]
      rfl
  | cons char text ih =>
      rw [before_cons] at unended
      split at unended
      · cases unended
      · rename_i notHere
        have notHereStill : ¬ pattern <+: char :: (text ++ guard :: pattern) := by
          intro starts
          exact notHere (prefix_of_guarded pattern (char :: text) pattern guard foreign starts)
        rw [List.cons_append, before_cons, if_neg notHereStill, ih (Option.map_eq_none_iff.mp unended)]
        rfl

theorem before_inline (pattern line text : List Char) (inline : Inline line) :
    before ('\r' :: pattern) (line ++ text) = (before ('\r' :: pattern) text).map (line ++ ·) := by
  induction line with
  | nil => simp
  | cons char line ih =>
      obtain ⟨notReturn, _, rest⟩ := inline.cons
      have notHere : ¬ '\r' :: pattern <+: char :: (line ++ text) := by
        intro starts
        exact notReturn (List.cons_prefix_cons.mp starts).1.symm
      rw [List.cons_append, before_cons, if_neg notHere, ih rest, Option.map_map]
      rfl

theorem before_crlf_line (char : Char) (text : List Char) (notReturn : char ≠ '\r') :
    before (crlf ++ crlf) (crlf ++ char :: text) = (before (crlf ++ crlf) (char :: text)).map (crlf ++ ·) := by
  have notHere : ¬ crlf ++ crlf <+: '\r' :: '\n' :: char :: text := by
    simp [crlf, List.cons_prefix_cons, notReturn.symm]
  have notNext : ¬ crlf ++ crlf <+: '\n' :: char :: text := by
    simp [crlf, List.cons_prefix_cons]
  show before (crlf ++ crlf) ('\r' :: '\n' :: char :: text) = _
  rw [before_cons, if_neg notHere, before_cons, if_neg notNext, Option.map_map]
  rfl

theorem before_blank_line (text : List Char) : before (crlf ++ crlf) (crlf ++ crlf ++ text) = some [] := by
  show before (crlf ++ crlf) ('\r' :: '\n' :: '\r' :: '\n' :: text) = some []
  rw [before_cons, if_pos (by simp [crlf, List.cons_prefix_cons])]

-- A section of lines, each but the first begun by CR LF.
def sectionOf (first : List Char) (rest : List (List Char)) : List Char := first ++ rest.flatMap (crlf ++ ·)

theorem section_of_cons (first line : List Char) (rest : List (List Char)) :
    sectionOf first (line :: rest) = first ++ (crlf ++ sectionOf line rest) := by
  simp [sectionOf]

-- A section without blank lines ends at the first blank line.
theorem before_section (first : List Char) (rest : List (List Char)) (text : List Char) (inline : Inline first)
    (full : ∀ line ∈ rest, line ≠ [] ∧ Inline line) :
    before (crlf ++ crlf) (sectionOf first rest ++ (crlf ++ crlf ++ text)) = some (sectionOf first rest) := by
  induction rest generalizing first with
  | nil =>
      simp only [sectionOf, List.flatMap_nil, List.append_nil]
      show before ('\r' :: _) _ = _
      rw [before_inline _ first _ inline, show '\r' :: _ = crlf ++ crlf from rfl, before_blank_line]
      simp
  | cons line rest ih =>
      obtain ⟨nonempty, lineInline⟩ := full line List.mem_cons_self
      have ended := ih line lineInline fun other member => full other (List.mem_cons_of_mem line member)
      obtain ⟨char, tail, rfl⟩ := List.exists_cons_of_ne_nil nonempty
      rw [section_of_cons, List.append_assoc]
      show before ('\r' :: _) _ = _
      rw [before_inline _ first _ inline, show '\r' :: _ = crlf ++ crlf from rfl, List.append_assoc]
      have starts : sectionOf (char :: tail) rest ++ (crlf ++ crlf ++ text) =
          char :: (tail ++ rest.flatMap (crlf ++ ·) ++ (crlf ++ crlf ++ text)) := by simp [sectionOf]
      rw [starts, before_crlf_line char _ lineInline.cons.1, ← starts, ended]
      rfl

theorem lines_cons (char : Char) (text : List Char) (notReturn : char ≠ '\r') (notFeed : char ≠ '\n') :
    lines (char :: text) =
      match lines text with
      | [] => [[char]]
      | line :: rest => (char :: line) :: rest := by
  rw [lines]
  · exact notFeed
  · intro other isReturn
    exact absurd isReturn notReturn

theorem lines_crlf (line text : List Char) (inline : Inline line) : lines (line ++ (crlf ++ text)) = line :: lines text := by
  induction line with
  | nil => rfl
  | cons char line ih =>
      obtain ⟨notReturn, notFeed, rest⟩ := inline.cons
      rw [List.cons_append, lines_cons char _ notReturn notFeed, ih rest]

theorem lines_feed (line text : List Char) (inline : Inline line) : lines (line ++ '\n' :: text) = line :: lines text := by
  induction line with
  | nil => rfl
  | cons char line ih =>
      obtain ⟨notReturn, notFeed, rest⟩ := inline.cons
      rw [List.cons_append, lines_cons char _ notReturn notFeed, ih rest]

-- Lines behind each of which the same end stands.
theorem lines_each (ending : List Char)
    (ends : ∀ line text, Inline line → lines (line ++ (ending ++ text)) = line :: lines text) (all : List (List Char))
    (inline : ∀ line ∈ all, Inline line) : lines (all.flatMap (· ++ ending)) = all := by
  induction all with
  | nil => rfl
  | cons line all ih =>
      rw [List.flatMap_cons, List.append_assoc, ends line _ (inline line List.mem_cons_self),
        ih fun other member => inline other (List.mem_cons_of_mem line member)]

theorem lines_all (all : List (List Char)) (inline : ∀ line ∈ all, Inline line) :
    lines (all.flatMap fun line => line ++ ['\n']) = all := lines_each ['\n'] lines_feed all inline

theorem lines_ended (all : List (List Char)) (inline : ∀ line ∈ all, Inline line) :
    lines (all.flatMap (· ++ crlf)) = all := lines_each crlf lines_crlf all inline

theorem lines_last (line : List Char) (inline : Inline line) (nonempty : line ≠ []) : lines line = [line] := by
  induction line with
  | nil => exact absurd rfl nonempty
  | cons char line ih =>
      obtain ⟨notReturn, notFeed, rest⟩ := inline.cons
      rw [lines_cons char _ notReturn notFeed]
      cases line with
      | nil => rfl
      | cons next line => rw [ih rest (List.cons_ne_nil next line)]

theorem lines_section (first : List Char) (rest : List (List Char)) (nonempty : first ≠ []) (inline : Inline first)
    (full : ∀ line ∈ rest, line ≠ [] ∧ Inline line) : lines (sectionOf first rest) = first :: rest := by
  induction rest generalizing first with
  | nil =>
      simp only [sectionOf, List.flatMap_nil, List.append_nil]
      exact lines_last first inline nonempty
  | cons line rest ih =>
      obtain ⟨lineFull, lineInline⟩ := full line List.mem_cons_self
      rw [section_of_cons, lines_crlf first _ inline,
        ih line lineFull lineInline fun other member => full other (List.mem_cons_of_mem line member)]

theorem words_blank (char : Char) (text : List Char) (blank : isWhitespace char = true) :
    words (char :: text) = words text := by
  cases text with
  | nil => exact if_pos blank
  | cons next text => exact if_pos blank

theorem words_one (char : Char) : words [char] = if isWhitespace char then [] else [[char]] := rfl

theorem words_more (char next : Char) (text : List Char) (solid : isWhitespace char = false) :
    words (char :: next :: text) =
      if isWhitespace next then [char] :: words (next :: text)
      else
        match words (next :: text) with
        | [] => [[char]]
        | word :: rest => (char :: word) :: rest :=
  if_neg (by simp [solid])

theorem words_last (word : List Char) (isWord : Word word) : words word = [word] := by
  obtain ⟨nonempty, solid⟩ := isWord
  induction word with
  | nil => exact absurd rfl nonempty
  | cons char word ih =>
      have first := solid char List.mem_cons_self
      cases word with
      | nil => simp [words_one, first]
      | cons next word =>
          have second := solid next (List.mem_cons_of_mem char List.mem_cons_self)
          rw [words_more char next word first]
          simp only [second, Bool.false_eq_true, if_false]
          rw [ih (List.cons_ne_nil next word) fun other member => solid other (List.mem_cons_of_mem char member)]

theorem words_space (word text : List Char) (isWord : Word word) : words (word ++ ' ' :: text) = word :: words text := by
  obtain ⟨nonempty, solid⟩ := isWord
  induction word with
  | nil => exact absurd rfl nonempty
  | cons char word ih =>
      have first := solid char List.mem_cons_self
      have space : isWhitespace ' ' = true := by decide
      cases word with
      | nil =>
          rw [List.singleton_append, words_more char ' ' text first, if_pos space, words_blank ' ' text space]
      | cons next word =>
          have second := solid next (List.mem_cons_of_mem char List.mem_cons_self)
          rw [List.cons_append, List.cons_append, words_more char next _ first]
          simp only [second, Bool.false_eq_true, if_false]
          rw [← List.cons_append,
            ih (List.cons_ne_nil next word) fun other member => solid other (List.mem_cons_of_mem char member)]

theorem split_once_append (separator : Char) (front back : List Char) (absent : separator ∉ front) :
    splitOnce separator (front ++ separator :: back) = some (front, back) := by
  induction front with
  | nil => rw [List.nil_append, split_once_cons, if_pos rfl]
  | cons char front ih =>
      simp only [List.mem_cons, not_or] at absent
      rw [List.cons_append, split_once_cons, if_neg (Ne.symm absent.1), ih absent.2]
      rfl

theorem split_once_some (separator : Char) (text front back : List Char)
    (found : splitOnce separator text = some (front, back)) : text = front ++ separator :: back ∧ separator ∉ front := by
  induction text generalizing front with
  | nil => cases found
  | cons char text ih =>
      rw [split_once_cons] at found
      split at found
      · rename_i same
        obtain ⟨rfl, rfl⟩ := Prod.mk.inj (Option.some.inj found)
        exact ⟨by rw [same, List.nil_append], List.not_mem_nil⟩
      · rename_i other
        obtain ⟨⟨rest, _⟩, isSplit, same⟩ := Option.map_eq_some_iff.mp found
        obtain ⟨rfl, rfl⟩ := Prod.mk.inj same
        obtain ⟨whole, absent⟩ := ih rest isSplit
        refine ⟨by rw [whole, List.cons_append], fun member => ?_⟩
        exact (List.mem_cons.mp member).elim (fun first => other first.symm) absent

theorem rsplit_once_append (separator : Char) (front back : List Char) (absent : separator ∉ back) :
    rsplitOnce separator (front ++ separator :: back) = some (front, back) := by
  have mirrored : (front ++ separator :: back).reverse = back.reverse ++ separator :: front.reverse := by simp
  rw [rsplitOnce, mirrored, split_once_append separator back.reverse _ (by simpa using absent)]
  simp

theorem rsplit_once_some (separator : Char) (text front back : List Char)
    (found : rsplitOnce separator text = some (front, back)) : text = front ++ separator :: back ∧ separator ∉ back := by
  obtain ⟨⟨last, first⟩, isSplit, same⟩ := Option.map_eq_some_iff.mp found
  obtain ⟨rfl, rfl⟩ := Prod.mk.inj same
  obtain ⟨mirrored, absent⟩ := split_once_some separator _ _ _ isSplit
  refine ⟨?_, by simpa using absent⟩
  rw [← List.reverse_reverse text, mirrored]
  simp

theorem split_once_none (separator : Char) (text : List Char) (none : splitOnce separator text = none) :
    separator ∉ text := by
  intro present
  obtain ⟨front, back, rfl, absent⟩ := List.eq_append_cons_of_mem present
  rw [split_once_append separator front back absent] at none
  cases none

theorem rsplit_once_none (separator : Char) (text : List Char) (none : rsplitOnce separator text = none) :
    separator ∉ text := by
  have mirrored := split_once_none separator text.reverse (Option.map_eq_none_iff.mp none)
  simpa using mirrored

theorem strip_prefix_append (front text : List Char) : stripPrefix front (front ++ text) = some text := by
  rw [stripPrefix, if_pos (List.prefix_append front text), List.drop_left]

theorem strip_prefix_some (front text rest : List Char) (stripped : stripPrefix front text = some rest) :
    text = front ++ rest := by
  rw [stripPrefix] at stripped
  split at stripped
  · rename_i isPrefix
    obtain rfl := Option.some.inj stripped
    obtain ⟨back, rfl⟩ := isPrefix
    rw [List.drop_left]
  · cases stripped

theorem strip_prefix_none (front head text : List Char) (apart : ¬ front <+: head ∧ ¬ head <+: front) :
    stripPrefix front (head ++ text) = none := by
  rw [stripPrefix, if_neg]
  intro starts
  exact (List.prefix_or_prefix_of_prefix starts (List.prefix_append head text)).elim apart.1 apart.2

theorem strip_suffix_append (back text : List Char) : stripSuffix back (text ++ back) = some text := by
  rw [stripSuffix, if_pos (List.suffix_append text back), List.length_append, Nat.add_sub_cancel, List.take_left]

theorem strip_suffix_some (back text rest : List Char) (stripped : stripSuffix back text = some rest) :
    text = rest ++ back := by
  rw [stripSuffix] at stripped
  split at stripped
  · rename_i isSuffix
    obtain ⟨front, rfl⟩ := isSuffix
    rw [List.length_append, Nat.add_sub_cancel, List.take_left] at stripped
    rw [Option.some.inj stripped]
  · cases stripped

theorem strip_suffix_none (back text : List Char) : stripSuffix back text = none ↔ ¬ back <:+ text := by
  rw [stripSuffix]
  split
  · rename_i isSuffix
    simp [isSuffix]
  · rename_i notSuffix
    simp [notSuffix]

theorem trim_space (text : List Char) : trim (' ' :: text) = trim text := by
  have space : isWhitespace ' ' = true := by decide
  simp [trim, space]

theorem trim_ends (text : List Char) (front : ∀ char ∈ text.head?, isWhitespace char = false)
    (back : ∀ char ∈ text.getLast?, isWhitespace char = false) : trim text = text := by
  have kept : ∀ list : List Char, (∀ char ∈ list.head?, isWhitespace char = false) → list.dropWhile isWhitespace = list := by
    intro list solid
    cases list with
    | nil => rfl
    | cons char rest => exact List.dropWhile_cons_of_neg (by simp [solid char rfl])
  rw [trim, kept text front, kept text.reverse (by rwa [List.head?_reverse]), List.reverse_reverse]

theorem trim_word (word : List Char) (solid : ∀ char ∈ word, isWhitespace char = false) : trim word = word :=
  trim_ends word (fun char first => solid char (List.mem_of_head? first))
    fun char last => solid char (List.mem_of_getLast? last)

theorem trim_words (first second : List Char) (isFirst : Word first) (isSecond : Word second) :
    trim (first ++ ' ' :: second) = first ++ ' ' :: second := by
  apply trim_ends
  · intro char front
    rw [List.head?_append_of_ne_nil _ isFirst.1] at front
    exact isFirst.2 char (List.mem_of_head? front)
  · intro char back
    rw [List.getLast?_append_of_ne_nil _ (List.cons_ne_nil _ _), List.getLast?_cons_of_ne_nil isSecond.1] at back
    exact isSecond.2 char (List.mem_of_getLast? back)

theorem mem_joined (separator char : Char) (parts : List (List Char)) (member : char ∈ [separator].intercalate parts) :
    char = separator ∨ ∃ part ∈ parts, char ∈ part := by
  induction parts with
  | nil => exact absurd member List.not_mem_nil
  | cons part parts ih =>
      by_cases last : parts = []
      · rw [last, List.intercalate_singleton] at member
        exact .inr ⟨part, List.mem_cons_self, member⟩
      · rw [List.intercalate_cons_of_ne_nil last, List.append_assoc, List.mem_append, List.singleton_append,
          List.mem_cons] at member
        rcases member with here | same | later
        · exact .inr ⟨part, List.mem_cons_self, here⟩
        · exact .inl same
        · exact (ih later).imp_right fun ⟨other, among, inside⟩ => ⟨other, List.mem_cons_of_mem part among, inside⟩

theorem word_digits (value : Nat) : Word (Nat.toDigits 10 value) := by
  refine ⟨Nat.toDigits_ne_nil, fun char member => ?_⟩
  have digit : char.isDigit = true := Nat.isDigit_of_mem_toDigits (by decide) (by decide) member
  have range : 48 ≤ char.toNat ∧ char.toNat ≤ 57 := Char.isDigit_iff_toNat.mp digit
  simp only [isWhitespace, Bool.or_eq_false_iff, Bool.and_eq_false_iff, decide_eq_false_iff_not]
  omega

theorem word_append (first second : List Char) (isFirst : Word first) (solid : ∀ char ∈ second, isWhitespace char = false) :
    Word (first ++ second) := by
  refine ⟨List.append_ne_nil_of_left_ne_nil isFirst.1 second, fun char member => ?_⟩
  exact (List.mem_append.mp member).elim (isFirst.2 char) (solid char)

theorem unsigned_value_digits (digits : List Char) (some : digits ≠ []) (all : ∀ char ∈ digits, char.isDigit = true) :
    unsignedValue digits = Option.some (Nat.ofDigitChars 10 digits 0) := by
  have unsigned : digits.head? ≠ Option.some '+' := by
    intro plus
    exact absurd (all '+' (List.mem_of_head? plus)) (by decide)
  rw [unsignedValue, if_neg unsigned, if_pos ⟨some, List.all_eq_true.mpr all⟩]

theorem unsigned_value_nat (value : Nat) : unsignedValue (toString value).toList = some value := by
  have digits : (toString value).toList = Nat.toDigits 10 value := by
    rw [Nat.toString_eq_repr, Nat.toList_repr]
  rw [digits, unsigned_value_digits _ Nat.toDigits_ne_nil fun char member =>
    Nat.isDigit_of_mem_toDigits (by decide) (by decide) member, Nat.ofDigitChars_ten_toDigits]

theorem parse_unsigned_digits (limit value : Nat) (fits : value < limit) :
    parseUnsigned limit (Nat.toDigits 10 value) = some value := by
  have read := unsigned_value_nat value
  rw [Nat.toString_eq_repr, Nat.toList_repr] at read
  rw [parse_unsigned_value, read, Option.filter_some, if_pos (decide_eq_true fits)]

end Text
