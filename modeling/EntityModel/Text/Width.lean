import EntityModel.Text.Case
import EntityModel.Text.EmojiTable
import EntityModel.Text.WidthTable

/-!
# Display width

How many cells of a fixed-width display a text takes. A text is read from its end: the width of a
character depends on what stands behind it, since emoji sequences, flags and ligatures of some
scripts take less room than their characters alone, and variation selectors choose between two forms of
the character in front of them. Main definitions: `charWidth` for a character alone, `Behind.before` for
one step, `width` for a text.
-/

namespace EntityModel.Text

/-- Cells that one character takes alone. -/
def charWidth (c : Char) : Nat :=
  if c = '\u17D8' then 3
  else if inRanges WidthTable.zero c.toNat then 0
  else if inRanges WidthTable.wide c.toNat then 2
  else 1

/-! ## Classes of characters -/

/-- The invisible character that joins its neighbours. -/
def joiner : Char := '\u200D'

/-- Letters of flags, two of which name a region. -/
def isFlagLetter (c : Char) : Bool := 0x1F1E6 ≤ c.toNat && c.toNat ≤ 0x1F1FF

/-- Colours of skin. -/
def isSkinColour (c : Char) : Bool := 0x1F3FB ≤ c.toNat && c.toNat ≤ 0x1F3FF

/-- Invisible letters that name the region of a flag. -/
def isTagLetter (c : Char) : Bool := 0xE0061 ≤ c.toNat && c.toNat ≤ 0xE007A

/-- Invisible digits that name the region of a flag. -/
def isTagDigit (c : Char) : Bool := 0xE0030 ≤ c.toNat && c.toNat ≤ 0xE0039

def isPicture (c : Char) : Bool := inRanges EmojiTable.pictures c.toNat

/-- Characters with a form as a picture and one as text. -/
def isSelectable (c : Char) : Bool := inRanges EmojiTable.selectable c.toNat

/-- Pictures with a narrow form as text. Enclosed ideographs stay wide. -/
def hasNarrowText (c : Char) : Bool :=
  isSelectable c && isPicture c && !(0x1F200 ≤ c.toNat && c.toNat < 0x1F300)

def isColourable (c : Char) : Bool := inRanges EmojiTable.colourable c.toNat

/-- Quotation marks with a wide form. -/
def isQuotationMark (c : Char) : Bool := c ∈ ['\u2018', '\u2019', '\u201C', '\u201D']

/-- Arabic letters that merge with the alef behind them. -/
def isLam (c : Char) : Bool :=
  inRanges [(0x644, 0x644), (0x6B5, 0x6B8), (0x76A, 0x76A), (0x8A6, 0x8A6), (0x8C7, 0x8C7)] c.toNat

/-- Forms of the Arabic letter alef. -/
def isAlef (c : Char) : Bool :=
  inRanges [(0x622, 0x623), (0x625, 0x625), (0x627, 0x627), (0x671, 0x673), (0x675, 0x675),
    (0x773, 0x774), (0x870, 0x882)] c.toNat

/-- Marks that do not come between two joining letters of Arabic. -/
def isJoiningMark (c : Char) : Bool :=
  inRanges WidthTable.zero c.toNat && !inRanges WidthTable.separating c.toNat

/-- Invisible marks that do not come between the parts of a ligature. -/
def isInvisibleMark (c : Char) : Bool :=
  inRanges [(0x34F, 0x34F), (0x17B4, 0x17B5), (0x180B, 0x180D), (0x180F, 0x180F), (0x200D, 0x200D),
    (0xFE00, 0xFE0F), (0xE0100, 0xE01EF)] c.toNat

def isTifinagh (c : Char) : Bool := inRanges [(0x2D31, 0x2D65), (0x2D6F, 0x2D6F)] c.toNat

/-- Khmer letters that a sign in front of them moves below the line. -/
def isSubscribed (c : Char) : Bool :=
  inRanges [(0x1780, 0x1782), (0x1784, 0x1787), (0x1789, 0x178C), (0x178E, 0x1793), (0x1795, 0x1798),
    (0x179B, 0x179D), (0x17A0, 0x17A0), (0x17A2, 0x17A2), (0x17A7, 0x17A7), (0x17AB, 0x17AC),
    (0x17AF, 0x17AF)] c.toNat

/-! ## What stands behind a character -/

/-- The end of a ligature, whose other characters stand in front. -/
inductive Ligature where
  | lamed
  | ya
  | yaWithVowel
  | tifinagh
  | tifinaghWithJoiner
  | toneLetter
  | orkhonI
  | subscribed
deriving DecidableEq

/-- What stands behind a character, as far as its width depends on it. The contexts whose name starts with
`joined`, and those of tags, have a joiner and a picture behind them in turn. -/
inductive Context where
  | other
  | lineFeed
  | picture
  | skinColour
  | flags (letters : Nat)
  | joined
  | joinedKeycap
  | joinedFlags (letters : Nat)
  | tagLetters (count : Nat)
  | tagDigits (count : Nat)
  | vowelE
  | vowelAi
  | alef
  | ending (ligature : Ligature) (joined : Bool)
deriving DecidableEq

namespace Context

/-- The context that a character makes by itself. -/
def ofChar (c : Char) : Context :=
  if isFlagLetter c then flags 1
  else if isSkinColour c then skinColour
  else if isPicture c then picture
  else if isAlef c then alef
  else if c = '\u05DC' then ending .lamed false
  else if c = '\u1A10' then ending .ya false
  else if isTifinagh c then ending .tifinagh false
  else if c = '\uA4FC' ∨ c = '\uA4FD' then ending .toneLetter false
  else if c.toNat = 0x10C03 then ending .orkhonI false
  else if isSubscribed c then ending .subscribed false
  else if c.toNat = 0x16D67 then vowelE
  else if c.toNat = 0x16D68 then vowelAi
  else other

/-- Whether the context lets a variation selector in front of it stand between it and the character that is
selected. -/
def keepsSelectors : Context → Bool
  | alef => true
  | ending _ _ => true
  | _ => false

/-- Whether a picture in front of the context becomes part of the one behind. -/
def joins : Context → Bool
  | joined => true
  | joinedKeycap => true
  | _ => false

end Context

/-- The width that a part in front adds to a ligature, and what then stands behind the next
character. -/
def Ligature.step (c : Char) : Ligature → Bool → Option (Int × Context)
  | lamed, true => if c = '\u05D0' then some (0, .other) else none
  | ya, true => if c = '\u1A17' then some (0, .ending .yaWithVowel true) else none
  | yaWithVowel, _ => if c = '\u1A15' then some (0, .other) else none
  | tifinagh, joined =>
    if c = '\u2D7F' then some (1, .ending .tifinaghWithJoiner true)
    else if joined && isTifinagh c then some (0, .other)
    else none
  | tifinaghWithJoiner, _ => if isTifinagh c then some (-1, .other) else none
  | toneLetter, _ => if 0xA4F8 ≤ c.toNat && c.toNat ≤ 0xA4FB then some (0, .other) else none
  | orkhonI, true => if c.toNat = 0x10C32 then some (0, .other) else none
  | subscribed, _ => if c = '\u17D2' then some (-1, .other) else none
  | _, _ => none

namespace Context

/-- The width that a character adds in a context that changes it, and what then stands behind the next
one. A pair of flag letters is one flag; a flag, a picture or a keycap in front of a joiner becomes part of
the picture behind it; a vowel merges with the one in front. -/
def step (c : Char) : Context → Option (Int × Context)
  | other => none
  | lineFeed => none
  | picture => if c = joiner then some (0, joined) else none
  | skinColour =>
    if c = joiner then some (0, joined)
    else if isColourable c then some (0, picture)
    else none
  | flags n =>
    if isFlagLetter c then some (1, flags (n + 1))
    else if c = joiner && 2 ≤ n then some (0, joined)
    else none
  | joined =>
    if c = '\u20E3' then some (0, joinedKeycap)
    else if isFlagLetter c then some (1, joinedFlags 1)
    else if isSkinColour c then some (0, skinColour)
    else if c.toNat = 0xE007F then some (0, tagLetters 0)
    else if isPicture c then some (0, picture)
    else none
  | joinedKeycap => none
  | joinedFlags n =>
    if isFlagLetter c then some (if n % 2 = 1 then -1 else 3, joinedFlags (n + 1))
    else if c = joiner && 2 ≤ n then some (0, joined)
    else none
  | tagLetters n =>
    if isTagLetter c && n < 6 then some (0, tagLetters (n + 1))
    else if isTagDigit c && n ≤ 4 then some (0, tagDigits 1)
    else if c.toNat = 0x1F3F4 && 3 ≤ n then some (0, picture)
    else none
  | tagDigits n =>
    if isTagDigit c && n < 3 then some (0, tagDigits (n + 1))
    else if c.toNat = 0x1F3F4 && n = 3 then some (0, picture)
    else none
  | vowelE =>
    if c.toNat = 0x16D67 then some (0, vowelAi)
    else if c.toNat = 0x16D68 then some (1, vowelE)
    else if c.toNat = 0x16D63 || c.toNat = 0x16D69 then some (0, other)
    else none
  | vowelAi => if c.toNat = 0x16D63 then some (0, other) else none
  | alef =>
    if isLam c then some (0, other)
    else if isJoiningMark c then some (0, alef)
    else none
  | ending ligature isJoined =>
    if c = joiner then some (0, ending ligature true)
    else if isInvisibleMark c then some (0, ending ligature isJoined)
    else ligature.step c isJoined

end Context

/-- A context and the variation selectors between it and the character in front: for a picture, for text, or
for a wide quotation mark. -/
structure Behind where
  context : Context := .other
  picture : Bool := false
  text : Bool := false
  wideQuote : Bool := false
deriving DecidableEq

namespace Behind

/-- Puts a selector for a picture in front. -/
def selectPicture (behind : Behind) : Behind :=
  if behind.context.keepsSelectors || behind.context.joins then { behind with picture := true }
  else { picture := true }

def selectText (behind : Behind) : Behind :=
  if behind.context.keepsSelectors then { behind with text := true } else { text := true }

def selectWideQuote (behind : Behind) : Behind :=
  if behind.context.keepsSelectors then { behind with wideQuote := true } else { wideQuote := true }

/-- Drops a selector for a picture that selects nothing. -/
def dropPicture (behind : Behind) : Behind :=
  if !behind.picture then behind
  else if behind.context.keepsSelectors then { behind with picture := false }
  else {}

/-- The width of a character that is not selected as a picture, and what then stands behind the next
one. -/
def beforeUnselected (behind : Behind) (c : Char) : Int × Behind :=
  if c ≤ '\u00A0' then
    if c = '\n' then (1, { context := .lineFeed })
    else (if c = '\r' ∧ behind.context = .lineFeed then 0 else 1, {})
  else if c = '\uFE0F' then (0, behind.selectPicture)
  else if c = '\uFE0E' then (0, behind.selectText)
  else if c = '\uFE01' then (0, behind.selectWideQuote)
  else if behind.wideQuote && isQuotationMark c then (2, {})
  else if behind.text && hasNarrowText c then (1, {})
  else
    let (width, context) := (behind.context.step c).getD (charWidth c, .ofChar c)
    (width, { context })

/-- The width that a character adds, and what then stands behind the next one. -/
def before (behind : Behind) (c : Char) : Int × Behind :=
  if behind.picture && isSelectable c then
    (if behind.context.joins then 0 else 2, { context := .picture })
  else behind.dropPicture.beforeUnselected c

end Behind

/-! ## Texts -/

/-- The width of a text, and what it puts behind a character in front of it. -/
def measure (text : List Char) : Int × Behind :=
  text.foldr (fun c (sum, behind) =>
    let (width, behind) := behind.before c
    (sum + width, behind)) (0, {})

/-- Cells that a text takes. -/
def width (text : List Char) : Nat := (measure text).1.toNat

end EntityModel.Text
