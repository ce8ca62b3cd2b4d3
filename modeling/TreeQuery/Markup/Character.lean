/-!
# Character classes of markup

Which characters a document may hold, which start a name and which continue one.  A
colon belongs to a name by itself but not to the two parts of a qualified name.
-/

set_option autoImplicit false

namespace TreeQuery.Markup

/-- The white space of markup. -/
def isSpace (c : Char) : Bool :=
  c = ' ' || c = '\t' || c = '\n' || c = '\r'

/-- The characters that a document may hold. -/
def isDocumentChar (c : Char) : Bool :=
  if c.toNat < 0x20 then isSpace c else c.toNat ≠ 0xFFFE && c.toNat ≠ 0xFFFF

/-- The characters beyond ASCII that start a name. -/
def startsNameBeyondAscii (code : Nat) : Bool :=
  (0xC0 ≤ code && code ≤ 0xD6) || (0xD8 ≤ code && code ≤ 0xF6) ||
    (0xF8 ≤ code && code ≤ 0x2FF) || (0x370 ≤ code && code ≤ 0x37D) ||
    (0x37F ≤ code && code ≤ 0x1FFF) || (0x200C ≤ code && code ≤ 0x200D) ||
    (0x2070 ≤ code && code ≤ 0x218F) || (0x2C00 ≤ code && code ≤ 0x2FEF) ||
    (0x3001 ≤ code && code ≤ 0xD7FF) || (0xF900 ≤ code && code ≤ 0xFDCF) ||
    (0xFDF0 ≤ code && code ≤ 0xFFFD) || (0x10000 ≤ code && code ≤ 0xEFFFF)

/-- The characters that start a part of a qualified name. -/
def startsName (c : Char) : Bool :=
  ('a' ≤ c && c ≤ 'z') || ('A' ≤ c && c ≤ 'Z') || c = '_' || startsNameBeyondAscii c.toNat

/-- The characters that continue a part of a qualified name. -/
def continuesName (c : Char) : Bool :=
  startsName c || ('0' ≤ c && c ≤ '9') || c = '-' || c = '.' || c.toNat = 0xB7 ||
    (0x300 ≤ c.toNat && c.toNat ≤ 0x36F) || (0x203F ≤ c.toNat && c.toNat ≤ 0x2040)

end TreeQuery.Markup
