/-
# Texts that spell values

The rules of the data format, for values without doubles: which texts spell a
value. White space may stand around every value and every key, and a character of
a string may be written in several ways. A text spells one value at most. What
the printer writes for a value spells the value.

Key definitions: `Json.Spells`, `Json.IsIntegral`.
Key theorems: `Json.Spells.unique`, `Json.spells_pretty`.
-/
import Concord.Json.Printer
import Concord.Proofs.Json.Canonical

namespace Concord
namespace Json

/-! ### The rules -/

/-- Whether a character is white space between the parts of a text. -/
def isGap (c : Char) : Bool := c == ' ' || c == '\t' || c == '\n' || c == '\r'

/-- The letters that stand behind a backslash, and the characters that they stand for. -/
def letters : List (Char × Char) :=
  [('"', '"'), ('\\', '\\'), ('/', '/'), ('b', '\x08'), ('f', '\x0c'), ('n', '\n'), ('r', '\r'),
    ('t', '\t')]

/-- The hexadecimal digits. -/
def hexDigits : List Char :=
  ['0', '1', '2', '3', '4', '5', '6', '7', '8', '9', 'a', 'b', 'c', 'd', 'e', 'f']

/-- The number that hexadecimal digits make. -/
def hexNumber (digits : List Char) : Nat :=
  digits.foldl (fun n d => 16 * n + hexDigits.idxOf d.toLower) 0

/-- A character of a string stands for itself, unless it is a quote, a backslash or a control; or it
is written by a letter, or by its number. -/
inductive SpellsChar : List Char → Char → Prop where
  | itself {c : Char} : c ≠ '"' → c ≠ '\\' → 0x20 ≤ c.toNat → SpellsChar [c] c
  | letter {l c : Char} : (l, c) ∈ letters → SpellsChar ['\\', l] c
  | number {digits : List Char} {c : Char} :
      digits.length = 4 → (∀ d ∈ digits, d.toLower ∈ hexDigits) → hexNumber digits = c.toNat →
      SpellsChar ('\\' :: 'u' :: digits) c

/-- The characters of a string, one after the other. -/
inductive SpellsChars : List Char → List Char → Prop where
  | nil : SpellsChars [] []
  | cons {s t : List Char} {c : Char} {cs : List Char} :
      SpellsChar s c → SpellsChars t cs → SpellsChars (s ++ t) (c :: cs)

/-- A string stands between quotes. -/
inductive SpellsString : List Char → String → Prop where
  | quoted {s : List Char} {text : String} :
      SpellsChars s text.toList → SpellsString ('"' :: (s ++ ['"'])) text

/-- A natural number is written by its decimal digits; a zero comes first only if it is all. -/
structure SpellsNat (s : List Char) (n : Nat) : Prop where
  digits : ∀ c ∈ s, c.isDigit = true
  nonempty : s ≠ []
  first : s.head? = some '0' → s = ['0']
  value : Nat.ofDigitChars 10 s 0 = n

/-- A number may have a minus before its digits. -/
inductive SpellsInt : List Char → Int → Prop where
  | plain {s : List Char} {n : Nat} : SpellsNat s n → SpellsInt s n
  | minus {s : List Char} {n : Nat} : SpellsNat s n → SpellsInt ('-' :: s) (-n)

section

variable {α : Type}

/-- White space may stand around a text. -/
inductive Padded (spells : List Char → α → Prop) : List Char → α → Prop where
  | pad {g s g' : List Char} {a : α} :
      (∀ c ∈ g, isGap c = true) → spells s a → (∀ c ∈ g', isGap c = true) →
      Padded spells (g ++ s ++ g') a

/-- Parts have commas between them. If there are none, there may be white space. -/
inductive Separated (part : List Char → α → Prop) : List Char → List α → Prop where
  | none {g : List Char} : (∀ c ∈ g, isGap c = true) → Separated part g []
  | one {s : List Char} {a : α} : part s a → Separated part s [a]
  | more {s t : List Char} {a b : α} {rest : List α} :
      part s a → Separated part t (b :: rest) → Separated part (s ++ ',' :: t) (a :: b :: rest)

end

/-- A member is a key and a value with a colon between them. -/
inductive SpellsMember (spells : List Char → Json → Prop) : List Char → String × Json → Prop where
  | member {s t : List Char} {key : String} {v : Json} :
      Padded SpellsString s key → Padded spells t v → SpellsMember spells (s ++ ':' :: t) (key, v)

/-- A text spells a value. -/
inductive Spells : List Char → Json → Prop where
  | null : Spells ['n', 'u', 'l', 'l'] .null
  | yes : Spells ['t', 'r', 'u', 'e'] (.bool true)
  | no : Spells ['f', 'a', 'l', 's', 'e'] (.bool false)
  | integer {s : List Char} {n : Int} : SpellsInt s n → Spells s (.number (.integer n))
  | string {s : List Char} {text : String} : SpellsString s text → Spells s (.string text)
  | array {s : List Char} {items : List Json} :
      Separated (Padded Spells) s items → Spells ('[' :: (s ++ [']'])) (.array items)
  | object {s : List Char} {members : List (String × Json)} :
      Separated (SpellsMember Spells) s members → Spells ('{' :: (s ++ ['}'])) (.object members)

/-! ### One text, one value -/

/-- A text does not start with such a character. -/
def NotFirst (p : Char → Bool) (r : List Char) : Prop := ∀ c ∈ r.head?, p c = false

/-- A run of characters ends where no such character follows. -/
theorem run_unique {p : Char → Bool} {s t r r' : List Char} (hs : ∀ c ∈ s, p c = true)
    (ht : ∀ c ∈ t, p c = true) (hr : NotFirst p r) (hr' : NotFirst p r') (h : s ++ r = t ++ r') :
    s = t ∧ r = r' := by
  have htake : ∀ {s r}, (∀ c ∈ s, p c = true) → NotFirst p r → (s ++ r).takeWhile p = s := by
    intro s r hs hr
    rw [List.takeWhile_append_of_pos hs]
    cases r with
    | nil => simp
    | cons c r => simp [hr c rfl]
  have hst : s = t := by rw [← htake hs hr, h, htake ht hr']
  subst hst
  exact ⟨rfl, List.append_cancel_left h⟩

/-- The marks that stand behind the parts of a text. -/
def marks : List Char := [',', ':', ']', '}']

/-- What follows a part of a text: nothing, or a mark. -/
def Ends (r : List Char) : Prop := ∀ c ∈ r.head?, c ∈ marks

theorem ends_cons {mark : Char} (h : mark ∈ marks) (r : List Char) : Ends (mark :: r) :=
  fun _ hc => Option.some.inj hc ▸ h

theorem notFirst_isGap_of_ends {r : List Char} (h : Ends r) : NotFirst isGap r := by
  have hmarks : ∀ c ∈ marks, isGap c = false := by simp [marks, isGap]
  exact fun c hc => hmarks c (h c hc)

theorem notFirst_isDigit_of_gap {g r : List Char} (hg : ∀ c ∈ g, isGap c = true) (h : Ends r) :
    NotFirst Char.isDigit (g ++ r) := by
  have hmarks : ∀ c ∈ marks, c.isDigit = false := by simp [marks]
  intro c hc
  cases g with
  | nil => exact hmarks c (h c hc)
  | cons c' g =>
    obtain rfl := Option.some.inj hc
    have hgap := hg c' List.mem_cons_self
    simp only [isGap, Bool.or_eq_true, beq_iff_eq] at hgap
    rcases hgap with ((rfl | rfl) | rfl) | rfl <;> rfl

/-- Texts between the same brackets are equal up to the closing one if they are with both. -/
theorem inner_eq {start stop : Char} {s t r r' : List Char}
    (h : start :: (s ++ [stop]) ++ r = start :: (t ++ [stop]) ++ r') :
    s ++ stop :: r = t ++ stop :: r' := by
  simpa using h

section

variable {α : Type} {spells : List Char → α → Prop} {a : α}

/-- If what follows is as it may be, a text tells what it spells and where it ends. -/
def Tells (spells : List Char → α → Prop) (follows : List Char → Prop) (a : α) : Prop :=
  ∀ b s t r r', spells s a → spells t b → follows r → follows r' → s ++ r = t ++ r' →
    a = b ∧ r = r'

/-- A text starts with a character that is no white space and no mark. -/
def Starts (s : List Char) : Prop :=
  ∃ c rest, s = c :: rest ∧ isGap c = false ∧ c ∉ marks

/-- White space around a text does not matter. -/
theorem tells_padded (hstarts : ∀ s a, spells s a → Starts s)
    (h : Tells spells (NotFirst Char.isDigit) a) : Tells (Padded spells) Ends a := by
  rintro b _ _ r r' ⟨hg₁, hs, hg₂⟩ ⟨hg₃, ht, hg₄⟩ hr hr' heq
  have hfirst : ∀ {a s r}, spells s a → NotFirst isGap (s ++ r) := by
    intro a s r hs c hc
    obtain ⟨c', rest, rfl, hc', -⟩ := hstarts s a hs
    obtain rfl := Option.some.inj hc
    exact hc'
  simp only [List.append_assoc] at heq
  obtain ⟨-, hrest⟩ := run_unique hg₁ hg₃ (hfirst hs) (hfirst ht) heq
  obtain ⟨hab, hbehind⟩ := h b _ _ _ _ hs ht (notFirst_isDigit_of_gap hg₂ hr)
    (notFirst_isDigit_of_gap hg₄ hr') hrest
  exact ⟨hab, (run_unique hg₂ hg₄ (notFirst_isGap_of_ends hr) (notFirst_isGap_of_ends hr')
    hbehind).2⟩

/-- A text starts so behind white space. -/
def Opens (s : List Char) : Prop := ∃ g u, (∀ c ∈ g, isGap c = true) ∧ Starts u ∧ s = g ++ u

theorem Opens.append {s : List Char} (h : Opens s) (r : List Char) : Opens (s ++ r) := by
  obtain ⟨g, _, hg, ⟨c, rest, rfl, hc⟩, rfl⟩ := h
  exact ⟨g, c :: rest ++ r, hg, ⟨c, rest ++ r, rfl, hc⟩, by rw [List.append_assoc]⟩

theorem opens_of_padded (hstarts : ∀ s a, spells s a → Starts s) {s : List Char}
    (h : Padded spells s a) : Opens s := by
  obtain ⟨hg, hs, -⟩ := h
  have hopens : Opens (_ ++ _) := ⟨_, _, hg, hstarts _ _ hs, rfl⟩
  exact hopens.append _

/-- A text that starts so does not start with a mark. -/
theorem Opens.ne_mark {s g r r' : List Char} {mark : Char} (hs : Opens s)
    (hg : ∀ c ∈ g, isGap c = true) (hmark : mark ∈ marks) :
    s ++ r ≠ g ++ mark :: r' := by
  obtain ⟨g₁, _, hg₁, ⟨c, rest, rfl, hc, hne⟩, rfl⟩ := hs
  intro heq
  rw [List.append_assoc] at heq
  have hc : NotFirst isGap (c :: rest ++ r) := fun _ h => Option.some.inj h ▸ hc
  have hr : NotFirst isGap (mark :: r') := notFirst_isGap_of_ends (ends_cons hmark r')
  obtain ⟨-, hrest⟩ := run_unique hg₁ hg hc hr heq
  exact hne ((List.cons.inj hrest).1 ▸ hmark)

/-- Parts between brackets tell how many they are, and what each of them spells. -/
theorem separated_unique {part : List Char → α → Prop} (hopens : ∀ s a, part s a → Opens s)
    {close : Char} (hclose : close ∈ [']', '}']) {items others : List α}
    (htells : ∀ a ∈ items, Tells part Ends a) {s t r r' : List Char} (hs : Separated part s items)
    (ht : Separated part t others) (heq : s ++ close :: r = t ++ close :: r') :
    items = others ∧ r = r' := by
  have hmarks : [']', '}'] ⊆ marks := by simp [marks]
  have hmark := hmarks hclose
  have hcomma : close ≠ ',' := by
    rintro rfl
    exact absurd hclose (by decide)
  have hend : ∀ r, Ends (close :: r) := ends_cons hmark
  have hmore : ∀ r, Ends (',' :: r) := ends_cons (by decide)
  induction hs generalizing others t with
  | none hg =>
    cases ht with
    | none hg' =>
      obtain ⟨-, hrest⟩ := run_unique hg hg' (notFirst_isGap_of_ends (hend r))
        (notFirst_isGap_of_ends (hend r')) heq
      exact ⟨rfl, (List.cons.inj hrest).2⟩
    | one hb => exact absurd heq.symm ((hopens _ _ hb).ne_mark hg hmark)
    | more hb hrest => exact absurd heq.symm (((hopens _ _ hb).append _).ne_mark hg hmark)
  | one ha =>
    have htell := htells _ List.mem_cons_self
    cases ht with
    | none hg => exact absurd heq ((hopens _ _ ha).ne_mark hg hmark)
    | one hb =>
      obtain ⟨rfl, hrest⟩ := htell _ _ _ _ _ ha hb (hend r) (hend r') heq
      exact ⟨rfl, (List.cons.inj hrest).2⟩
    | more hb _ =>
      rw [List.append_assoc] at heq
      obtain ⟨-, hrest⟩ := htell _ _ _ _ _ ha hb (hend r) (hmore _) heq
      exact absurd (List.cons.inj hrest).1 hcomma
  | more ha _ ih =>
    have htell := htells _ List.mem_cons_self
    rw [List.append_assoc] at heq
    cases ht with
    | none hg => exact absurd heq ((hopens _ _ ha).ne_mark hg hmark)
    | one hb =>
      obtain ⟨-, hrest⟩ := htell _ _ _ _ _ ha hb (hmore _) (hend r') heq
      exact absurd (List.cons.inj hrest).1.symm hcomma
    | more hb hothers =>
      rw [List.append_assoc] at heq
      obtain ⟨rfl, hrest⟩ := htell _ _ _ _ _ ha hb (hmore _) (hmore _) heq
      obtain ⟨hitems, hr⟩ := ih (fun a h => htells a (List.mem_cons_of_mem _ h)) hothers
        (List.cons.inj hrest).2
      exact ⟨congrArg _ hitems, hr⟩

end

/-! ### Strings and numbers -/

theorem starts_of_spellsString {s : List Char} {text : String} (h : SpellsString s text) :
    Starts s := by
  cases h
  exact ⟨'"', _, rfl, by decide, by decide⟩

/-- A character tells where it ends. -/
theorem char_unique {s t r r' : List Char} {c d : Char} (hs : SpellsChar s c) (ht : SpellsChar t d)
    (heq : s ++ r = t ++ r') : c = d ∧ r = r' := by
  have hletters : (letters.map (·.1)).Nodup := by decide
  have hnumber : ∀ p ∈ letters, p.1 ≠ 'u' := by simp [letters]
  cases hs with
  | itself _ hc =>
    cases ht with
    | itself => exact List.cons.inj heq
    | letter => exact absurd (List.cons.inj heq).1 hc
    | number => exact absurd (List.cons.inj heq).1 hc
  | letter hl =>
    cases ht with
    | itself _ hd => exact absurd (List.cons.inj heq).1.symm hd
    | letter hl' =>
      obtain ⟨hll, hr⟩ := List.cons.inj (List.cons.inj heq).2
      exact ⟨congrArg Prod.snd (List.inj_on_of_nodup_map hletters hl hl' hll), hr⟩
    | number => exact absurd (List.cons.inj (List.cons.inj heq).2).1 (hnumber _ hl)
  | number hlen _ hvalue =>
    cases ht with
    | itself _ hd => exact absurd (List.cons.inj heq).1.symm hd
    | letter hl => exact absurd (List.cons.inj (List.cons.inj heq).2).1.symm (hnumber _ hl)
    | number hlen' _ hvalue' =>
      obtain ⟨rfl, hr⟩ := List.append_inj (List.cons.inj (List.cons.inj heq).2).2
        (hlen.trans hlen'.symm)
      exact ⟨Char.toNat_inj.mp (hvalue.symm.trans hvalue'), hr⟩

/-- No character of a string starts with a quote. -/
theorem char_ne_quote {s r r' : List Char} {c : Char} (h : SpellsChar s c) : s ++ r ≠ '"' :: r' := by
  intro heq
  cases h with
  | itself hc => exact hc (List.cons.inj heq).1
  | letter => exact absurd (List.cons.inj heq).1 (by decide)
  | number => exact absurd (List.cons.inj heq).1 (by decide)

theorem chars_unique {s t r r' cs ds : List Char} (hs : SpellsChars s cs) (ht : SpellsChars t ds)
    (heq : s ++ '"' :: r = t ++ '"' :: r') : cs = ds ∧ r = r' := by
  induction hs generalizing t ds with
  | nil =>
    cases ht with
    | nil => exact ⟨rfl, (List.cons.inj heq).2⟩
    | cons hd =>
      rw [List.append_assoc] at heq
      exact absurd heq.symm (char_ne_quote hd)
  | cons hc _ ih =>
    rw [List.append_assoc] at heq
    cases ht with
    | nil => exact absurd heq (char_ne_quote hc)
    | cons hd hds =>
      rw [List.append_assoc] at heq
      obtain ⟨rfl, hrest⟩ := char_unique hc hd heq
      obtain ⟨rfl, hr⟩ := ih hds hrest
      exact ⟨rfl, hr⟩

theorem string_unique {s t r r' : List Char} {text other : String} (hs : SpellsString s text)
    (ht : SpellsString t other) (heq : s ++ r = t ++ r') : text = other ∧ r = r' := by
  obtain ⟨hs⟩ := hs
  obtain ⟨ht⟩ := ht
  obtain ⟨hchars, hr⟩ := chars_unique hs ht (inner_eq heq)
  exact ⟨String.toList_inj.mp hchars, hr⟩

/-- A number starts with a digit or a minus. -/
theorem int_head {s : List Char} {n : Int} (h : SpellsInt s n) :
    ∃ c rest, s = c :: rest ∧ (c.isDigit = true ∨ c = '-') := by
  cases h with
  | minus => exact ⟨'-', _, rfl, .inr rfl⟩
  | plain h =>
    obtain ⟨c, rest, rfl⟩ := List.exists_cons_of_ne_nil h.nonempty
    exact ⟨c, rest, rfl, .inl (h.digits c List.mem_cons_self)⟩

theorem nat_unique {s t r r' : List Char} {n m : Nat} (hs : SpellsNat s n) (ht : SpellsNat t m)
    (hr : NotFirst Char.isDigit r) (hr' : NotFirst Char.isDigit r') (heq : s ++ r = t ++ r') :
    n = m ∧ r = r' := by
  obtain ⟨rfl, hrest⟩ := run_unique hs.digits ht.digits hr hr' heq
  exact ⟨hs.value.symm.trans ht.value, hrest⟩

theorem nat_ne_minus {s r r' : List Char} {n : Nat} (h : SpellsNat s n) : s ++ r ≠ '-' :: r' := by
  intro heq
  obtain ⟨c, rest, rfl⟩ := List.exists_cons_of_ne_nil h.nonempty
  have hc := h.digits c List.mem_cons_self
  rw [(List.cons.inj heq).1] at hc
  exact absurd hc (by decide)

/-- A number tells where it ends if no digit follows. -/
theorem int_unique {s t r r' : List Char} {n m : Int} (hs : SpellsInt s n) (ht : SpellsInt t m)
    (hr : NotFirst Char.isDigit r) (hr' : NotFirst Char.isDigit r') (heq : s ++ r = t ++ r') :
    n = m ∧ r = r' := by
  cases hs with
  | plain hs =>
    cases ht with
    | plain ht =>
      obtain ⟨rfl, hrest⟩ := nat_unique hs ht hr hr' heq
      exact ⟨rfl, hrest⟩
    | minus => exact absurd heq (nat_ne_minus hs)
  | minus hs =>
    cases ht with
    | plain ht => exact absurd heq.symm (nat_ne_minus ht)
    | minus ht =>
      obtain ⟨rfl, hrest⟩ := nat_unique hs ht hr hr' (List.cons.inj heq).2
      exact ⟨rfl, hrest⟩

/-! ### Values -/

/-- The characters with which words, strings, arrays and objects start. -/
def leads : List Char := ['n', 't', 'f', '"', '[', '{']

/-- What sort of value it is, as a place among these characters; numbers come last. -/
def sort : Json → Nat
  | .null => 0
  | .bool true => 1
  | .bool false => 2
  | .string _ => 3
  | .array _ => 4
  | .object _ => 5
  | .number _ => 6

/-- The first character tells the sort of a value, and is no white space and no mark. -/
theorem Spells.head {s : List Char} {v : Json} (h : Spells s v) :
    ∃ c rest, s = c :: rest ∧ leads.idxOf c = v.sort ∧ isGap c = false ∧ c ∉ marks := by
  cases h with
  | integer h =>
    obtain ⟨c, rest, rfl, hc⟩ := int_head h
    have hnot : ∀ d ∈ leads ++ [' ', '\t', '\n', '\r'] ++ marks,
        ¬(d.isDigit = true ∨ d = '-') := by simp [leads, marks]
    have hne : ∀ d ∈ leads ++ [' ', '\t', '\n', '\r'] ++ marks, c ≠ d := by
      rintro d hd rfl
      exact hnot c hd hc
    simp only [leads, marks, List.cons_append, List.nil_append, List.forall_mem_cons,
      List.not_mem_nil, false_implies, implies_true, and_true] at hne
    refine ⟨c, rest, rfl, List.idxOf_eq_length ?_, ?_, ?_⟩ <;> simp [leads, marks, isGap, hne]
  | string h =>
    cases h
    exact ⟨_, _, rfl, rfl, rfl, by decide⟩
  | null | yes | no | array | object => exact ⟨_, _, rfl, rfl, rfl, by decide⟩

theorem Spells.starts (s : List Char) (v : Json) (h : Spells s v) : Starts s := by
  obtain ⟨c, rest, hs, -, hc⟩ := h.head
  exact ⟨c, rest, hs, hc⟩

/-- Texts that start alike spell values of the same sort. -/
theorem sort_eq {s t r r' : List Char} {v w : Json} (hs : Spells s v) (ht : Spells t w)
    (heq : s ++ r = t ++ r') : v.sort = w.sort := by
  obtain ⟨c, rest, rfl, hc, -⟩ := hs.head
  obtain ⟨d, rest', rfl, hd, -⟩ := ht.head
  rw [← hc, ← hd, (List.cons.inj heq).1]

theorem tells_key (key : String) : Tells SpellsString (NotFirst Char.isDigit) key :=
  fun _ _ _ _ _ hs ht _ _ heq => string_unique hs ht heq

theorem opens_of_member {s : List Char} {m : String × Json} (h : SpellsMember Spells s m) :
    Opens s := by
  obtain ⟨hkey, -⟩ := h
  exact (opens_of_padded (fun _ _ => starts_of_spellsString) hkey).append _

/-- A member tells its key and its value. -/
theorem tells_member {m : String × Json} (h : Tells (Padded Spells) Ends m.2) :
    Tells (SpellsMember Spells) Ends m := by
  rintro _ _ _ r r' ⟨hkey, hv⟩ ⟨hkey', hw⟩ hr hr' heq
  have hcolon : ∀ r, Ends (':' :: r) := ends_cons (by decide)
  simp only [List.append_assoc, List.cons_append] at heq
  obtain ⟨rfl, hrest⟩ := tells_padded (fun _ _ => starts_of_spellsString) (tells_key _) _ _ _ _ _
    hkey hkey' (hcolon _) (hcolon _) heq
  obtain ⟨rfl, hr⟩ := h _ _ _ _ _ hv hw hr hr' (List.cons.inj hrest).2
  exact ⟨rfl, hr⟩

/-- If no digit follows, a text tells which value it spells, and where it ends. -/
theorem tells_value (v : Json) : Tells Spells (NotFirst Char.isDigit) v := by
  induction v using Json.induct with
  | null =>
    intro w s t r r' hs ht _ _ heq
    have hsort := sort_eq hs ht heq
    cases hs
    cases ht with
    | null => exact ⟨rfl, List.append_cancel_left heq⟩
    | _ => cases hsort
  | bool b =>
    intro w s t r r' hs ht _ _ heq
    have hsort := sort_eq hs ht heq
    cases hs <;> cases ht <;> first | exact ⟨rfl, List.append_cancel_left heq⟩ | cases hsort
  | number n =>
    intro w s t r r' hs ht hr hr' heq
    have hsort := sort_eq hs ht heq
    cases hs with
    | integer hs =>
      cases ht with
      | integer ht =>
        obtain ⟨rfl, hrest⟩ := int_unique hs ht hr hr' heq
        exact ⟨rfl, hrest⟩
      | _ => cases hsort
  | string text =>
    intro w s t r r' hs ht _ _ heq
    have hsort := sort_eq hs ht heq
    cases hs with
    | string hs =>
      cases ht with
      | string ht =>
        obtain ⟨rfl, hrest⟩ := string_unique hs ht heq
        exact ⟨rfl, hrest⟩
      | _ => cases hsort
  | array items ih =>
    intro w s t r r' hs ht _ _ heq
    have hsort := sort_eq hs ht heq
    have htells : ∀ item ∈ items, Tells (Padded Spells) Ends item := fun item h =>
      tells_padded Spells.starts (ih item h)
    cases hs with
    | array hs =>
      cases ht with
      | array ht =>
        obtain ⟨rfl, hrest⟩ := separated_unique (fun _ _ => opens_of_padded Spells.starts)
          (by decide) htells hs ht (inner_eq heq)
        exact ⟨rfl, hrest⟩
      | _ => cases hsort
  | object members ih =>
    intro w s t r r' hs ht _ _ heq
    have hsort := sort_eq hs ht heq
    have htells : ∀ m ∈ members, Tells (SpellsMember Spells) Ends m := fun m h =>
      tells_member (tells_padded Spells.starts (ih m h))
    cases hs with
    | object hs =>
      cases ht with
      | object ht =>
        obtain ⟨rfl, hrest⟩ := separated_unique (fun _ _ => opens_of_member) (by decide) htells
          hs ht (inner_eq heq)
        exact ⟨rfl, hrest⟩
      | _ => cases hsort

/-- **One text, one value.** A text spells one value at most. -/
theorem Spells.unique {s : List Char} {v w : Json} (hv : Spells s v) (hw : Spells s w) : v = w :=
  have hnil : NotFirst Char.isDigit [] := nofun
  (tells_value v w s s [] [] hv hw hnil hnil rfl).1

/-! ### What is printed -/

/-- No number of the value is a double. -/
inductive IsIntegral : Json → Prop where
  | null : IsIntegral .null
  | bool (b : Bool) : IsIntegral (.bool b)
  | integer (n : Int) : IsIntegral (.number (.integer n))
  | string (text : String) : IsIntegral (.string text)
  | array {items : List Json} : (∀ item ∈ items, IsIntegral item) → IsIntegral (.array items)
  | object {members : List (String × Json)} :
      (∀ m ∈ members, IsIntegral m.2) → IsIntegral (.object members)

/-- The digits of a control make its number. -/
theorem hexNumber_control : ∀ n < 0x20,
    let digits := (if n < 0x10 then ['0', '0', '0'] else ['0', '0']) ++ Nat.toDigits 16 n
    digits.length = 4 ∧ digits.all (hexDigits.contains ·.toLower) = true ∧ hexNumber digits = n := by
  decide

theorem spells_escapedChar (c : Char) : SpellsChar (escapedChar c) c := by
  have hletter : ∀ p ∈ letters, SpellsChar ['\\', p.1] p.2 := fun _ h => .letter h
  unfold escapedChar
  split
  · next h => exact h ▸ hletter ('"', '"') (by decide)
  split
  · next h => exact h ▸ hletter ('\\', '\\') (by decide)
  split
  · next h => exact h ▸ hletter ('b', '\x08') (by decide)
  split
  · next h => exact h ▸ hletter ('f', '\x0c') (by decide)
  split
  · next h => exact h ▸ hletter ('n', '\n') (by decide)
  split
  · next h => exact h ▸ hletter ('r', '\r') (by decide)
  split
  · next h => exact h ▸ hletter ('t', '\t') (by decide)
  split
  · next h16 =>
    obtain ⟨hlength, hhex, hvalue⟩ := hexNumber_control c.toNat (by omega)
    rw [if_pos h16] at hlength hhex hvalue
    exact .number hlength (by simpa using hhex) hvalue
  split
  · next h16 h32 =>
    obtain ⟨hlength, hhex, hvalue⟩ := hexNumber_control c.toNat h32
    rw [if_neg h16] at hlength hhex hvalue
    exact .number hlength (by simpa using hhex) hvalue
  · next h32 => exact .itself ‹_› ‹_› (Nat.le_of_not_lt h32)

theorem spells_stringText (text : String) : SpellsString (stringText text).toList text := by
  have hchars : ∀ cs : List Char, SpellsChars (cs.flatMap escapedChar) cs := by
    intro cs
    induction cs with
    | nil => exact .nil
    | cons c cs ih => exact .cons (spells_escapedChar c) ih
  rw [stringText, String.toList_ofList]
  exact .quoted (hchars text.toList)

/-- The digits of a number do not start with a zero, unless it is zero. -/
theorem head?_toDigits (n : Nat) :
    (Nat.toDigits 10 n).head? = some '0' → Nat.toDigits 10 n = ['0'] := by
  induction n using Nat.strongRecOn with
  | ind n ih =>
    rw [Nat.toDigits_eq_if (by decide)]
    split
    · intro h
      rw [List.head?_cons, Option.some_inj] at h
      rw [h]
    · next hn =>
      -- The digits before the last one are those of a positive number, so they are not a zero.
      intro h
      rw [List.head?_append_of_ne_nil _ Nat.toDigits_ne_nil] at h
      have hzero := congrArg (Nat.ofDigitChars 10 · 0) (ih (n / 10) (by omega) h)
      rw [Nat.ofDigitChars_ten_toDigits] at hzero
      have hpos : 0 < n / 10 := by omega
      exact absurd hzero (Nat.ne_of_gt hpos)

theorem spells_toDigits (n : Nat) : SpellsNat (Nat.toDigits 10 n) n where
  digits _ hc := Nat.isDigit_of_mem_toDigits (by decide) (by decide) hc
  nonempty := Nat.toDigits_ne_nil
  first := head?_toDigits n
  value := Nat.ofDigitChars_ten_toDigits

theorem spells_numberText (n : Int) : SpellsInt (numberText (.integer n)).toList n := by
  cases n with
  | ofNat n =>
    have h : (numberText (.integer (.ofNat n))).toList = Nat.toDigits 10 n := String.toList_ofList
    rw [h]
    exact .plain (spells_toDigits n)
  | negSucc n =>
    have h : (numberText (.integer (.negSucc n))).toList = '-' :: Nat.toDigits 10 (n + 1) := by
      show ("-" ++ String.ofList (Nat.toDigits 10 (n + 1))).toList = _
      rw [String.toList_append, String.toList_ofList]
      simp
    rw [h]
    exact .minus (spells_toDigits (n + 1))

theorem prettyItems_eq (level : Nat) (items : List Json) :
    prettyItems level items = items.map (prettyAt level) :=
  eq_map_of_cons (by simp [prettyItems]) (fun _ _ => by simp [prettyItems]) items

theorem prettyMembers_eq (level : Nat) (members : List (String × Json)) :
    prettyMembers level members =
      members.map fun m => stringText m.1 ++ ": " ++ prettyAt level m.2 :=
  eq_map_of_cons (by simp [prettyMembers]) (fun _ _ => by simp [prettyMembers]) members

/-- Parts that are put on lines of their own are separated. -/
theorem separated_lines {α : Type} {part : List Char → α → Prop} {f : α → String} {g g' : List Char}
    (hg' : ∀ c ∈ g', isGap c = true) {a : α} {rest : List α}
    (hpart : ∀ x ∈ a :: rest, ∀ g' : List Char, (∀ c ∈ g', isGap c = true) →
      part (g ++ (f x).toList ++ g') x) :
    Separated part (g ++ (("," ++ String.ofList g).intercalate ((a :: rest).map f)).toList ++ g')
      (a :: rest) := by
  induction rest generalizing a with
  | nil => simpa using Separated.one (hpart a List.mem_cons_self g' hg')
  | cons b rest ih =>
    have hfirst := hpart a List.mem_cons_self [] nofun
    have hrest := ih fun x hx => hpart x (List.mem_cons_of_mem _ hx)
    rw [List.map_cons, List.map_cons, String.intercalate_cons_cons, ← List.map_cons]
    simpa using Separated.more hfirst hrest

theorem isGap_newLine (level : Nat) : ∀ c ∈ (newLine level).toList, isGap c = true := by
  intro c hc
  rw [newLine, String.toList_ofList, List.mem_cons, List.mem_replicate] at hc
  rcases hc with rfl | ⟨-, rfl⟩ <;> rfl

/-- Parts between brackets that are put on lines of their own. -/
theorem separated_spread {α : Type} {part : List Char → α → Prop} {f : α → String} (level : Nat)
    (start stop : Char) {a : α} {rest : List α}
    (hpart : ∀ x ∈ a :: rest, ∀ g g' : List Char, (∀ c ∈ g, isGap c = true) →
      (∀ c ∈ g', isGap c = true) → part (g ++ (f x).toList ++ g') x) :
    ∃ s, (spread level (String.singleton start) (String.singleton stop)
        ((a :: rest).map f)).toList = start :: (s ++ [stop]) ∧ Separated part s (a :: rest) := by
  have hlines : ∀ x ∈ a :: rest, ∀ g' : List Char, (∀ c ∈ g', isGap c = true) →
      part ((newLine (level + 1)).toList ++ (f x).toList ++ g') x := fun x hx g' hg' =>
    hpart x hx _ g' (isGap_newLine (level + 1)) hg'
  have h := separated_lines (isGap_newLine level) hlines
  rw [String.ofList_toList] at h
  refine ⟨_, ?_, h⟩
  simp [spread]

/-- What is printed for a value spells it, at any level. -/
theorem spells_prettyAt {v : Json} (h : v.IsIntegral) (level : Nat) :
    Spells (prettyAt level v).toList v := by
  induction h generalizing level with
  | null =>
    simp only [prettyAt, leafText]
    exact .null
  | bool b =>
    cases b <;> simp only [prettyAt, leafText]
    · exact .no
    · exact .yes
  | integer n =>
    simp only [prettyAt, leafText]
    exact .integer (spells_numberText n)
  | string text =>
    simp only [prettyAt, leafText]
    exact .string (spells_stringText text)
  | @array items _ ih =>
    cases items with
    | nil =>
      have hempty : Separated (Padded Spells) [] [] := .none nofun
      simp only [prettyAt, leafText]
      exact .array hempty
    | cons item rest =>
      obtain ⟨s, hs, hitems⟩ := separated_spread (f := prettyAt (level + 1)) level '[' ']'
        fun x hx g g' hg hg' => Padded.pad hg (ih x hx (level + 1)) hg'
      have htext : (prettyAt level (.array (item :: rest))).toList = '[' :: (s ++ [']']) := by
        rw [prettyAt, prettyItems_eq]
        exact hs
      rw [htext]
      exact .array hitems
  | @object members _ ih =>
    cases members with
    | nil =>
      have hempty : Separated (SpellsMember Spells) [] [] := .none nofun
      simp only [prettyAt, leafText]
      exact .object hempty
    | cons m rest =>
      have hmember : ∀ x ∈ m :: rest, ∀ g g' : List Char, (∀ c ∈ g, isGap c = true) →
          (∀ c ∈ g', isGap c = true) → SpellsMember Spells
            (g ++ (stringText x.1 ++ ": " ++ prettyAt (level + 1) x.2).toList ++ g') x := by
        intro x hx g g' hg hg'
        have hkey : Padded SpellsString (g ++ (stringText x.1).toList ++ []) x.1 :=
          .pad hg (spells_stringText x.1) nofun
        have hvalue : Padded Spells ([' '] ++ (prettyAt (level + 1) x.2).toList ++ g') x.2 :=
          .pad (by simp [isGap]) (ih x hx (level + 1)) hg'
        simpa using SpellsMember.member hkey hvalue
      obtain ⟨s, hs, hmembers⟩ := separated_spread level '{' '}' hmember
      have htext : (prettyAt level (.object (m :: rest))).toList = '{' :: (s ++ ['}']) := by
        rw [prettyAt, prettyMembers_eq]
        exact hs
      rw [htext]
      exact .object hmembers

/-- **What is printed spells the value.** -/
theorem spells_pretty {v : Json} (h : v.IsIntegral) : Spells v.pretty.toList v :=
  spells_prettyAt h 0

end Json
end Concord
