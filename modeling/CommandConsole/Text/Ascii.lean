/-! Comparison of texts that looks through the case of the letters A to Z, and of no others. -/
namespace CommandConsole.Text

/-- Only `A` to `Z` have another form here. -/
def lowerAscii (s : String) : String := String.ofList (s.toList.map Char.toLower)

def sameIgnoringCase (s t : String) : Bool := lowerAscii s == lowerAscii t

end CommandConsole.Text
