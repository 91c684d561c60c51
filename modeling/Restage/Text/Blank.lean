/-!
# White space

The characters that separate words and surround statements.  Twenty-nine characters count as blank:
the ASCII controls from the tab to the carriage return, the four information separators, the space,
and the spaces and line separators of the wider character set.  Every reader of the library trims
and splits at exactly these.
-/

namespace Restage.Text

/-- The code points of the blank characters, in increasing order. -/
def blankCodes : List Nat :=
  [0x09, 0x0A, 0x0B, 0x0C, 0x0D, 0x1C, 0x1D, 0x1E, 0x1F, 0x20, 0x85, 0xA0, 0x1680,
   0x2000, 0x2001, 0x2002, 0x2003, 0x2004, 0x2005, 0x2006, 0x2007, 0x2008, 0x2009, 0x200A,
   0x2028, 0x2029, 0x202F, 0x205F, 0x3000]

def isBlank (c : Char) : Bool := blankCodes.contains c.toNat

end Restage.Text
