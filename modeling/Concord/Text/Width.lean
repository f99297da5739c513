/-
# Display width

The cells that a text takes in a terminal are those of its characters, but for
the places where neighbours are drawn together: letters that merge, a person and
the tone of its skin, pictures behind joiners, and characters that a selector
behind them gives another form. So a text is measured from its end, and what is
kept of the part behind a character is how that part begins, and whether its
first character is a selector.

Key definitions: `Text.Head`, `Text.Following`, `Text.measure`, `Text.width`.
-/
import Concord.Text.Cells
import Concord.Text.Emoji
import Concord.Text.Ligature

namespace Concord
namespace Text

/-- How a text begins, as far as the character before it is concerned. -/
inductive Head where
  /-- Nothing that merges. -/
  | plain
  /-- An Arabic alef. -/
  | alef
  /-- A Hebrew lamed, perhaps with a joiner before it. -/
  | lamed (joined : Bool)
  /-- A Khmer letter that can be written below another. -/
  | khmerLetter
  /-- A Buginese ya, perhaps with a joiner before it. -/
  | ya (joined : Bool)
  /-- A Buginese vowel sign with a joined ya behind it. -/
  | joinedYaSign
  /-- A Tifinagh consonant, perhaps with a joiner before it. -/
  | tifinagh (joined : Bool)
  /-- The Tifinagh consonant joiner with a consonant behind it. -/
  | tifinaghJoiner
  /-- A Lisu tone that can follow another. -/
  | lisuTone
  /-- An Old Turkic i, perhaps with a joiner before it. -/
  | oldTurkicI (joined : Bool)
  /-- The Kirat Rai vowel sign e. -/
  | kiratRaiE
  /-- The Kirat Rai vowel sign ai, or two signs e. -/
  | kiratRaiAi
  /-- A tone of skin. -/
  | modifier
  /-- A picture. -/
  | picture
  /-- So many letters of flags. -/
  | flag (letters : Nat)
  /-- A joiner with a picture behind it. -/
  | joinedPicture
  /-- The frame of a keycap before a joined picture. -/
  | joinedKeycap
  /-- So many letters of flags before a joined picture. -/
  | joinedFlag (letters : Nat)
  /-- So many letters at the end of the tags before a joined picture. -/
  | tagLetters (count : Nat)
  /-- So many digits at the front of such tags. -/
  | tagDigits (count : Nat)
  deriving DecidableEq, Repr

namespace Head

/-- How a text begins whose first character is this one and merges with nothing behind it. -/
def ofChar (c : Char) : Head :=
  if isAlef c then .alef
  else if c = '\u05DC' then .lamed false
  else if isTakenBelow c then .khmerLetter
  else if c = '\u1A10' then .ya false
  else if isTifinaghLetter c then .tifinagh false
  else if isLastLisuTone c then .lisuTone
  else if c.toNat = 0x10C03 then .oldTurkicI false
  else if c.toNat = 0x16D67 then .kiratRaiE
  else if c.toNat = 0x16D68 then .kiratRaiAi
  else if isModifier c then .modifier
  else if isFlagLetter c then .flag 1
  else if isPicture c then .picture
  else .plain

/-- Whether a text begins with a letter that merges through joiners and ignored marks. -/
def isOpen : Head → Bool
  | .lamed _ | .khmerLetter | .ya _ | .joinedYaSign | .tifinagh _ | .tifinaghJoiner | .lisuTone
  | .oldTurkicI _ => true
  | _ => false

/-- Whether a text begins with a letter that merges through selectors. -/
def isLetter (h : Head) : Bool := h = .alef || h.isOpen

/-- Whether a character in its coloured form is part of the joined picture that a text begins
with. -/
def isJoined (h : Head) : Bool := h = .joinedPicture || h = .joinedKeycap

/-- An open letter with a joiner before it. -/
def join : Head → Head
  | .lamed _ => .lamed true
  | .ya _ => .ya true
  | .tifinagh _ => .tifinagh true
  | .oldTurkicI _ => .oldTurkicI true
  | h => h

/-- An open letter behind a joiner or an ignored mark. -/
def through? (c : Char) (h : Head) : Option Head :=
  if !h.isOpen then none
  else if c = '\u200D' then some h.join
  else if isIgnoredMark c then some h
  else none

/-- A letter merged with the one behind it: the cells that it adds and the new beginning. -/
def mergeLetter? (c : Char) : Head → Option (Int × Head)
  | .alef =>
    if isLam c then some (0, .plain)
    else if isTransparent c then some (0, .alef)
    else none
  | .lamed joined => if joined && c = '\u05D0' then some (0, .plain) else none
  | .khmerLetter => if c = '\u17D2' then some (-1, .plain) else none
  | .ya joined => if joined && c = '\u1A17' then some (0, .joinedYaSign) else none
  | .joinedYaSign => if c = '\u1A15' then some (0, .plain) else none
  | .tifinagh joined =>
    if c = '\u2D7F' then some (1, .tifinaghJoiner)
    else if joined && isTifinaghLetter c then some (0, .plain)
    else none
  | .tifinaghJoiner => if isTifinaghLetter c then some (-1, .plain) else none
  | .lisuTone => if isFirstLisuTone c then some (0, .plain) else none
  | .oldTurkicI joined => if joined && c.toNat = 0x10C32 then some (0, .plain) else none
  | .kiratRaiE =>
    if c.toNat = 0x16D63 || c.toNat = 0x16D69 then some (0, .plain)
    else if c.toNat = 0x16D67 then some (0, .kiratRaiAi)
    else if c.toNat = 0x16D68 then some (1, .kiratRaiE)
    else none
  | .kiratRaiAi => if c.toNat = 0x16D63 then some (0, .plain) else none
  | _ => none

/-- A part of an emoji merged with the part behind it: the cells that it adds and the new beginning.
The letters of flags count two for each pair, and before a joined picture nothing for the first
pair. -/
def mergeEmoji? (c : Char) : Head → Option (Int × Head)
  | .modifier =>
    if isModifiable c then some (0, .picture)
    else if c = '\u200D' then some (0, .joinedPicture)
    else none
  | .picture => if c = '\u200D' then some (0, .joinedPicture) else none
  | .flag letters =>
    if isFlagLetter c then some (1, .flag (letters + 1))
    else if c = '\u200D' && 2 ≤ letters then some (0, .joinedPicture)
    else none
  | .joinedPicture =>
    if c = '\u20E3' then some (0, .joinedKeycap)
    else if isFlagLetter c then some (1, .joinedFlag 1)
    else if isModifier c then some (0, .modifier)
    else if isTagEnd c then some (0, .tagLetters 0)
    else if isPicture c then some (0, .picture)
    else none
  | .joinedFlag letters =>
    if isFlagLetter c then some (if letters % 2 = 1 then -1 else 3, .joinedFlag (letters + 1))
    else if c = '\u200D' && 2 ≤ letters then some (0, .joinedPicture)
    else none
  | .tagLetters count =>
    if isTagLetter c && count < 6 then some (0, .tagLetters (count + 1))
    else if isTagDigit c && count < 5 then some (0, .tagDigits 1)
    else if isBlackFlag c && 3 ≤ count then some (0, .picture)
    else none
  | .tagDigits count =>
    if isTagDigit c && count < 3 then some (0, .tagDigits (count + 1))
    else if isBlackFlag c && count = 3 then some (0, .picture)
    else none
  | _ => none

end Head

/-- The characters that choose the form of the one before them. -/
inductive Selector where
  /-- The coloured form of an emoji. -/
  | emoji
  /-- The plain form of an emoji. -/
  | text
  /-- The wide form of a quotation mark. -/
  | wideQuote
  deriving DecidableEq, Repr

/-- The selector that a character is. -/
def Selector.ofChar? (c : Char) : Option Selector :=
  if c = '\uFE0F' then some .emoji
  else if c = '\uFE0E' then some .text
  else if c = '\uFE01' then some .wideQuote
  else none

/-- What follows a character: perhaps a selector, and how the text behind that begins. -/
structure Following where
  head : Head
  selector : Option Selector
  deriving DecidableEq, Repr

namespace Following

/-- The form that the selector behind a character gives it: its cells and the new beginning. -/
def select? (c : Char) (f : Following) : Option (Int × Head) :=
  match f.selector with
  | some .emoji =>
    if hasEmojiForm c then some (if f.head.isJoined then 0 else 2, .picture) else none
  | some .text => if hasTextForm c then some (1, .plain) else none
  | some .wideQuote => if isQuotationMark c then some (2, .plain) else none
  | none => none

/-- How the text begins behind a selector that does not apply. -/
def passed (f : Following) : Head :=
  if f.selector = none || f.head.isLetter then f.head else .plain

/-- A selector before a beginning, of which it hides all but letters and, if it is the one of the
coloured form, a joined picture. -/
def hide (s : Selector) (h : Head) : Following :=
  ⟨if h.isLetter || (s = .emoji && h.isJoined) then h else .plain, some s⟩

/-- A character before what follows: the cells that it adds and what follows the character before
it. -/
def put (c : Char) (f : Following) : Int × Following :=
  match f.select? c with
  | some (cells, head) => (cells, ⟨head, none⟩)
  | none =>
    match Selector.ofChar? c with
    | some s => (0, hide s f.passed)
    | none =>
      match f.passed.through? c with
      | some head => (0, ⟨head, none⟩)
      | none =>
        match (f.passed.mergeLetter? c).or (f.passed.mergeEmoji? c) with
        | some (cells, head) => (cells, ⟨head, none⟩)
        | none => (cells c, ⟨Head.ofChar c, none⟩)

end Following

/-- The cells of a text, and what it is to the character before it. -/
def measure : List Char → Int × Following
  | [] => (0, ⟨.plain, none⟩)
  | c :: rest =>
    let (behind, following) := measure rest
    let (here, following) := following.put c
    (here + behind, following)

/-- The cells that a text takes. -/
def width (text : String) : Nat := (measure text.toList).1.toNat

end Text
end Concord
