/-
  NetBoard.Proofs.Address
  ───────────────────────
  **ADDRESSES AS NUMBERS.**

  Header fields carry addresses as numbers.  Nothing is lost on the way: an
  address is the address of its number, and its number fits the field.
-/
import NetBoard.Address

namespace NetBoard

open scoped Power

/-- The octet of a number above `n` bits. -/
theorem toNat_octet (v n : Nat) : (UInt8.ofNat (v >>> n)).toNat = v / 2 ^ n % 256 := by
  rw [UInt8.toNat_ofNat', Nat.shiftRight_eq_div_pow]

namespace MacAddress

/-- Six octets fit 48 bits. -/
theorem toNat_lt (m : MacAddress) : m.toNat < 2 ^ (48 : Nat) := by
  have h := Bytes.toNatBE_lt m.octets
  rwa [show m.octets.length = 6 from rfl, show 256 ^ 6 = 2 ^ 48 from rfl] at h

/-- The octets of an address are those of its number, the most significant one first. -/
theorem octets_ofNat (v : Nat) : (ofNat v).octets = Bytes.ofNatBE 6 v := by
  simp [ofNat, octets, Bytes.ofNatBE, Nat.shiftRight_eq_div_pow]

/-- An address is found again in its number. -/
@[simp] theorem ofNat_toNat (m : MacAddress) : ofNat m.toNat = m := by
  obtain ⟨o0, o1, o2, o3, o4, o5⟩ := m
  have h0 := o0.toNat_lt
  have h1 := o1.toNat_lt
  have h2 := o2.toNat_lt
  have h3 := o3.toNat_lt
  have h4 := o4.toNat_lt
  have h5 := o5.toNat_lt
  have hval : (⟨o0, o1, o2, o3, o4, o5⟩ : MacAddress).toNat =
      ((((o0.toNat * 256 + o1.toNat) * 256 + o2.toNat) * 256 + o3.toNat) * 256 + o4.toNat) * 256 +
        o5.toNat := by
    simp [toNat, octets, Bytes.toNatBE]
  rw [ofNat, hval]
  congr 1 <;> apply UInt8.toNat_inj.1
  case e_o5 =>
    rw [UInt8.toNat_ofNat']
    omega
  all_goals
    rw [toNat_octet]
    omega

end MacAddress

namespace Ipv4

/-- Four octets fit 32 bits. -/
theorem toNat_lt (a : Ipv4) : a.toNat < 2 ^ (32 : Nat) := by
  have h := Bytes.toNatBE_lt a.octets
  rwa [show a.octets.length = 4 from rfl, show 256 ^ 4 = 2 ^ 32 from rfl] at h

/-- The octets of an address are those of its number, the most significant one first. -/
theorem octets_ofNat (v : Nat) : (ofNat v).octets = Bytes.ofNatBE 4 v := by
  simp [ofNat, octets, Bytes.ofNatBE, Nat.shiftRight_eq_div_pow]

/-- An address is found again in its number. -/
@[simp] theorem ofNat_toNat (a : Ipv4) : ofNat a.toNat = a := by
  obtain ⟨o0, o1, o2, o3⟩ := a
  have h0 := o0.toNat_lt
  have h1 := o1.toNat_lt
  have h2 := o2.toNat_lt
  have h3 := o3.toNat_lt
  have hval : (⟨o0, o1, o2, o3⟩ : Ipv4).toNat =
      ((o0.toNat * 256 + o1.toNat) * 256 + o2.toNat) * 256 + o3.toNat := by
    simp [toNat, octets, Bytes.toNatBE]
  rw [ofNat, hval]
  congr 1 <;> apply UInt8.toNat_inj.1
  case e_o3 =>
    rw [UInt8.toNat_ofNat']
    omega
  all_goals
    rw [toNat_octet]
    omega

end Ipv4
end NetBoard
