import CommandConsole.Text.LetterTable
import CommandConsole.Text.Lowercase

/-! Letters and numbers of all scripts. -/
namespace CommandConsole.Text

def isAlphabetic (c : Char) : Bool := inRanges alphabeticRanges c

def isNumeric (c : Char) : Bool := inRanges numericRanges c

def isAlphanumeric (c : Char) : Bool := isAlphabetic c || isNumeric c

end CommandConsole.Text
