import ChartDocs.Text.Alphabetic
import ChartDocs.Text.Mark
import ChartDocs.Text.Numeric

/-!
# Word characters and word boundaries

A word character is alphabetic, a mark, a decimal number, a connector punctuation or a join
control, in version 16 of Unicode: what version 17 added belongs to no words. A word boundary lies
between two positions of which exactly one is a word character. The class of alphanumeric
characters differs: it is that of version 17, and it has the numbers of all kinds, and neither marks
nor connectors.
-/

namespace ChartDocs.Text

/-- The code points of the general category Connector_Punctuation. -/
def connectorRanges : Ranges := [
  (0x5F, 0x5F), (0x203F, 0x2040), (0x2054, 0x2054), (0xFE33, 0xFE34), (0xFE4D, 0xFE4F),
  (0xFF3F, 0xFF3F)]

/-- The code points with the Unicode property Join_Control. -/
def joinControlRanges : Ranges := [(0x200C, 0x200D)]

/-- The alphabetic characters, marks and decimal numbers that version 17 of Unicode added. -/
def addedRanges : Ranges := [
  (0x88F, 0x88F), (0xC5C, 0xC5C), (0xCDC, 0xCDC), (0x1ACF, 0x1ADD), (0x1AE0, 0x1AEB),
  (0xA7CE, 0xA7CF), (0xA7D2, 0xA7D2), (0xA7D4, 0xA7D4), (0xA7F1, 0xA7F1), (0x10940, 0x10959),
  (0x10EC5, 0x10EC7), (0x10EFA, 0x10EFB), (0x11B60, 0x11B67), (0x11DB0, 0x11DDB),
  (0x11DE0, 0x11DE9), (0x16EA0, 0x16EB8), (0x16EBB, 0x16ED3), (0x16FF2, 0x16FF6),
  (0x187F8, 0x187FF), (0x18D09, 0x18D1E), (0x18D80, 0x18DF2), (0x1E6C0, 0x1E6DE),
  (0x1E6E0, 0x1E6F5), (0x1E6FE, 0x1E6FF), (0x2B73A, 0x2B73F), (0x2CEA2, 0x2CEAD),
  (0x323B0, 0x33479)]

/-- Whether a character belongs to words. -/
def isWord (c : Char) : Bool :=
  (isAlphabetic c || isMark c || isDecimalNumber c || connectorRanges.contains c ||
    joinControlRanges.contains c) && !addedRanges.contains c

/-- Whether a character is alphabetic or a number. -/
def isAlphanumeric (c : Char) : Bool :=
  isAlphabetic c || isNumber c

/-- Whether a word boundary lies between a character and the text after it. -/
def boundaryAfter (last : Char) : List Char → Bool
  | [] => isWord last
  | next :: _ => isWord last != isWord next

end ChartDocs.Text
