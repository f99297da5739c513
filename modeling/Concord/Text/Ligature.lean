/-
# Letters that merge

In some scripts two neighbours are drawn as one sign. The classes here tell
which characters do so, and which marks may stand between them.

Key definitions: `Text.isLam`, `Text.isAlef`, `Text.isTransparent`,
`Text.isTakenBelow`, `Text.isTifinaghLetter`, `Text.isIgnoredMark`.
-/
import Concord.Text.Cells

namespace Concord
namespace Text

/-- The Arabic letters that join as lam does. -/
def isLam (c : Char) : Bool :=
  within [0x644, 0x645, 0x6B5, 0x6B9, 0x76A, 0x76B, 0x8A6, 0x8A7, 0x8C7, 0x8C8] c.toNat

/-- The Arabic letters that join as alef does. -/
def isAlef (c : Char) : Bool :=
  within [0x622, 0x624, 0x625, 0x626, 0x627, 0x628, 0x671, 0x674, 0x675, 0x676, 0x773, 0x775,
    0x870, 0x883] c.toNat

/-- Characters without a cell that keep the letters around them apart. -/
def separate : List Nat := [
  0x605, 0x606, 0x890, 0x892, 0x8E2, 0x8E3, 0x9BE, 0x9BF, 0x9D7, 0x9D8, 0xB3E, 0xB3F, 0xB57, 0xB58,
  0xBBE, 0xBBF, 0xBD7, 0xBD8, 0xCC0, 0xCC1, 0xCC2, 0xCC3, 0xCC7, 0xCC9, 0xCCA, 0xCCC, 0xCD5, 0xCD7,
  0xD3E, 0xD3F, 0xD4E, 0xD4F, 0xD57, 0xD58, 0xDCF, 0xDD0, 0xDDF, 0xDE0, 0x1160, 0x1200, 0x1715,
  0x1716, 0x1734, 0x1735, 0x180E, 0x180F, 0x1B35, 0x1B36, 0x1B3B, 0x1B3C, 0x1B3D, 0x1B3E, 0x1B43,
  0x1B45, 0x1BAA, 0x1BAB, 0x1BF2, 0x1BF4, 0x200C, 0x200E, 0x2065, 0x206A, 0x302E, 0x3030, 0x3164,
  0x3165, 0xA8FA, 0xA8FB, 0xA953, 0xA954, 0xA9C0, 0xA9C1, 0xD7B0, 0xD7C7, 0xD7CB, 0xD7FC, 0xFF9E,
  0xFFA1, 0xFFF0, 0xFFF9, 0x111C0, 0x111C1, 0x111C2, 0x111C4, 0x11235, 0x11236, 0x1133E, 0x1133F,
  0x1134D, 0x1134E, 0x11357, 0x11358, 0x113B8, 0x113B9, 0x113C2, 0x113C3, 0x113C5, 0x113C6,
  0x113C7, 0x113CA, 0x113CF, 0x113D0, 0x113D1, 0x113D2, 0x114B0, 0x114B1, 0x114BD, 0x114BE,
  0x115AF, 0x115B0, 0x116B6, 0x116B7, 0x11930, 0x11931, 0x1193D, 0x1193E, 0x1193F, 0x11940,
  0x11941, 0x11942, 0x11A84, 0x11A8A, 0x11D46, 0x11D47, 0x11F02, 0x11F03, 0x11F41, 0x11F42,
  0x16FF0, 0x16FF2, 0x1D165, 0x1D167, 0x1D16D, 0x1D173, 0xE0000, 0xE0001, 0xE0002, 0xE0020,
  0xE0080, 0xE0100, 0xE01F0, 0xE1000]

/-- Whether Arabic letters join through a character: it takes no cell and keeps nothing apart. -/
def isTransparent (c : Char) : Bool := cells c = 0 && !within separate c.toNat

/-- Whether a Khmer letter can be written below the one before it. -/
def isTakenBelow (c : Char) : Bool :=
  within [0x1780, 0x1783, 0x1784, 0x1788, 0x1789, 0x178D, 0x178E, 0x1794, 0x1795, 0x1799,
    0x179B, 0x179E, 0x17A0, 0x17A1, 0x17A2, 0x17A3, 0x17A7, 0x17A8, 0x17AB, 0x17AD,
    0x17AF, 0x17B0] c.toNat

/-- Whether a character is a consonant of Tifinagh. -/
def isTifinaghLetter (c : Char) : Bool := within [0x2D31, 0x2D66, 0x2D6F, 0x2D70] c.toNat

/-- Whether a character is one of the two Lisu tones that follow another tone. -/
def isLastLisuTone (c : Char) : Bool := within [0xA4FC, 0xA4FE] c.toNat

/-- Whether a character is one of the four Lisu tones that another tone follows. -/
def isFirstLisuTone (c : Char) : Bool := within [0xA4F8, 0xA4FC] c.toNat

/-- Whether a character is a mark that a reader of the text may ignore, a selector for instance. -/
def isIgnoredMark (c : Char) : Bool :=
  within [0x34F, 0x350, 0x17B4, 0x17B6, 0x180B, 0x180E, 0x180F, 0x1810,
    0xFE00, 0xFE10, 0xE0100, 0xE01F0] c.toNat

/-- Whether a character is a quotation mark with a wide form. -/
def isQuotationMark (c : Char) : Bool :=
  c = '\u2018' || c = '\u2019' || c = '\u201C' || c = '\u201D'

end Text
end Concord
