/-
  NetBoard.Header.Basic
  ─────────────────────
  **HEADERS AS TABLES OF BIT FIELDS.**

  A header is a list of named bit fields within a number of octets.  A field
  starts at an octet and is read from the big-endian number of the octets it
  spans; `offset` counts the bits below it in that number.

  Main definitions:

      Fields          — values by field name, zero where none was set
      Header.encode   — the octets of a header from the values of its fields
      Header.decode   — the values of the fields from the octets
-/
import NetBoard.Address

namespace NetBoard

open scoped Power

/-! ## §1. Values. -/

/-- Field values by name; of two for one name the later one counts. -/
structure Fields where
  /-- The latest first. -/
  entries : List (String × Nat) := []
  deriving Repr, DecidableEq, Inhabited

namespace Fields

/-- Set a field. -/
def set (f : Fields) (name : String) (value : Nat) : Fields := ⟨(name, value) :: f.entries⟩

/-- The value of a field, zero if it was never set. -/
def get (f : Fields) (name : String) : Nat := (f.entries.lookup name).getD 0

/-- The value of a field as a hardware address. -/
def mac (f : Fields) (name : String) : MacAddress := .ofNat (f.get name)

/-- The value of a field as an Internet address. -/
def ip (f : Fields) (name : String) : Ipv4 := .ofNat (f.get name)

@[simp] theorem get_empty (name : String) : ({} : Fields).get name = 0 := rfl

@[simp] theorem get_set_self (f : Fields) (name : String) (v : Nat) :
    (f.set name v).get name = v := by
  simp [get, set]

theorem get_set_of_ne (f : Fields) {name other : String} (v : Nat) (h : other ≠ name) :
    (f.set name v).get other = f.get other := by
  have hb : (other == name) = false := by simp [h]
  simp [get, set, List.lookup_cons, hb]

end Fields

/-! ## §2. Fields. -/

namespace Header

/-- One bit field of a header. -/
structure Field where
  name : String
  /-- The first octet the field touches. -/
  byte : Nat
  /-- The bits below the field in the number of the octets it spans. -/
  offset : Nat
  /-- The bits of the field. -/
  width : Nat
  deriving Repr, DecidableEq, Inhabited

namespace Field

/-- The number of octets the field touches. -/
def span (f : Field) : Nat := (f.offset + f.width + 7) / 8

/-- The number written by the octets the field touches; octets beyond the end
read as zero.  It has 128 bits: of more octets only the last sixteen count. -/
def region (f : Field) (bs : Bytes) : Nat :=
  (List.range f.span).foldl (fun acc i => acc * 256 + (bs.getD (f.byte + i) 0).toNat) 0 % 2 ^ (128 : Nat)

/-- The bits of the field in its region. -/
def mask (f : Field) : Nat := (2 ^ f.width - 1) <<< f.offset

/-- The value of the field in `bs`.  Values have 64 bits; a wider field is cut. -/
def read (f : Field) (bs : Bytes) : Nat := (f.region bs >>> f.offset) % 2 ^ f.width % 2 ^ (64 : Nat)

/-- The octets `bs` with the field set to the low bits of `v`. -/
def write (f : Field) (v : Nat) (bs : Bytes) : Bytes :=
  let region := f.region bs
  let word := (region ^^^ (region &&& f.mask)) ||| ((v <<< f.offset) &&& f.mask)
  bs.take f.byte ++ Bytes.ofNatBE f.span word ++ bs.drop (f.byte + f.span)

end Field
end Header

/-! ## §3. Headers. -/

/-- A header format. -/
structure Header where
  fields : List Header.Field
  /-- The octets of the header. -/
  length : Nat
  deriving Repr, DecidableEq, Inhabited

namespace Header

/-- The first field of a name. -/
def field? (h : Header) (name : String) : Option Field :=
  h.fields.find? (·.name == name)

/-- The octets of the header, fields written in the order of the table; bits of no field are zero. -/
def encode (h : Header) (values : Fields) : Bytes :=
  h.fields.foldl (fun bs f => f.write (values.get f.name) bs) (List.replicate h.length 0)

/-- The values of all fields in `bs`. -/
def decode (h : Header) (bs : Bytes) : Fields :=
  h.fields.foldl (fun values f => values.set f.name (f.read bs)) {}

end Header
end NetBoard
