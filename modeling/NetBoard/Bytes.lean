/-
  NetBoard.Bytes
  ──────────────
  **OCTET STRINGS.**

  Everything on the wire is a list of octets.  This module holds the two
  readings of such a list as a number (most or least significant octet
  first), the inverse writers of a fixed length, and the cut of a list into
  words of a fixed width.

  Main statements:

      length_ofNatBE   — a written number has the asked length
      ofNatBE_toNatBE  — reading and writing back is the identity
      toNatBE_ofNatBE  — writing and reading back keeps the low octets
      flatten_words    — cutting into words loses nothing
-/

namespace NetBoard

namespace Power

/-- Opened where a definition or a statement has a power, so that it is the core library's
there whatever else is imported. -/
scoped instance (priority := high) natPow {α : Type} [NatPow α] : Pow α Nat := instPowNat

end Power

open scoped Power

/-- An octet string. -/
abbrev Bytes := List UInt8

namespace Bytes

/-! ## §1. Numbers. -/

/-- The number written by `bs`, most significant octet first. -/
def toNatBE (bs : Bytes) : Nat :=
  bs.foldl (fun acc b => acc * 256 + b.toNat) 0

/-- The number written by `bs`, least significant octet first. -/
def toNatLE (bs : Bytes) : Nat :=
  bs.foldr (fun b acc => b.toNat + 256 * acc) 0

/-- The `n` low octets of `v`, most significant first. -/
def ofNatBE : Nat → Nat → Bytes
  | 0, _ => []
  | n + 1, v => UInt8.ofNat (v / 256 ^ n) :: ofNatBE n v

/-- The `n` low octets of `v`, least significant first. -/
def ofNatLE : Nat → Nat → Bytes
  | 0, _ => []
  | n + 1, v => UInt8.ofNat v :: ofNatLE n (v / 256)

@[simp] theorem length_ofNatBE (n v : Nat) : (ofNatBE n v).length = n := by
  induction n with
  | zero => rfl
  | succ n ih => simp [ofNatBE, ih]

@[simp] theorem length_ofNatLE (n v : Nat) : (ofNatLE n v).length = n := by
  induction n generalizing v with
  | zero => rfl
  | succ n ih => simp [ofNatLE, ih]

/-- A start value is shifted past all octets read after it. -/
theorem foldl_toNatBE (bs : Bytes) (a : Nat) :
    bs.foldl (fun acc b => acc * 256 + b.toNat) a = a * 256 ^ bs.length + toNatBE bs := by
  induction bs generalizing a with
  | nil => simp [toNatBE]
  | cons b bs ih =>
    simp only [toNatBE, List.foldl_cons, List.length_cons, Nat.pow_succ]
    rw [ih (a * 256 + b.toNat), ih (0 * 256 + b.toNat)]
    simp [Nat.add_mul, Nat.mul_assoc, Nat.add_assoc, Nat.mul_comm 256]

@[simp] theorem toNatBE_nil : toNatBE [] = 0 := rfl

theorem toNatBE_cons (b : UInt8) (bs : Bytes) :
    toNatBE (b :: bs) = b.toNat * 256 ^ bs.length + toNatBE bs := by
  rw [toNatBE, List.foldl_cons, foldl_toNatBE, Nat.zero_mul, Nat.zero_add]

/-- The octets in front are moved up by those behind them. -/
theorem toNatBE_append (xs ys : Bytes) :
    toNatBE (xs ++ ys) = toNatBE xs * 256 ^ ys.length + toNatBE ys := by
  simp only [toNatBE, List.foldl_append]
  exact foldl_toNatBE ys _

/-- Octets are digits of the base 256. -/
theorem toNatBE_lt (bs : Bytes) : toNatBE bs < 256 ^ bs.length := by
  induction bs with
  | nil => simp
  | cons b bs ih =>
    rw [toNatBE_cons, List.length_cons, Nat.pow_succ]
    have hb := b.toNat_lt
    calc b.toNat * 256 ^ bs.length + toNatBE bs
        < b.toNat * 256 ^ bs.length + 256 ^ bs.length := by omega
      _ = (b.toNat + 1) * 256 ^ bs.length := by rw [Nat.add_mul, Nat.one_mul]
      _ ≤ 256 * 256 ^ bs.length := Nat.mul_le_mul_right _ (by omega)
      _ = 256 ^ bs.length * 256 := Nat.mul_comm _ _

/-- Only the low octets are written. -/
theorem ofNatBE_mod (n v : Nat) : ofNatBE n (v % 256 ^ n) = ofNatBE n v := by
  suffices h : ∀ m, n ≤ m → ofNatBE n (v % 256 ^ m) = ofNatBE n v from h n (Nat.le_refl n)
  induction n with
  | zero => intro m _; rfl
  | succ n ih =>
    intro m hm
    simp only [ofNatBE, ih m (by omega)]
    congr 1
    apply UInt8.toNat_inj.1
    simp only [UInt8.toNat_ofNat']
    obtain ⟨k, rfl⟩ : ∃ k, m = n + (k + 1) := ⟨m - n - 1, by omega⟩
    rw [Nat.pow_add, Nat.mod_mul_right_div_self, Nat.pow_succ,
      Nat.mod_mul_left_mod]

/-- Written with as many octets, a number is what was read. -/
theorem ofNatBE_toNatBE (bs : Bytes) : ofNatBE bs.length (toNatBE bs) = bs := by
  induction bs with
  | nil => rfl
  | cons b bs ih =>
    have hlt := toNatBE_lt bs
    have hpos : 0 < 256 ^ bs.length := Nat.pow_pos (by decide)
    simp only [List.length_cons, ofNatBE]
    congr 1
    · rw [toNatBE_cons, Nat.add_comm, Nat.add_mul_div_right _ _ hpos, Nat.div_eq_of_lt hlt]
      simp
    · rw [← ofNatBE_mod, toNatBE_cons, Nat.add_comm, Nat.add_mul_mod_self_right,
        Nat.mod_eq_of_lt hlt, ih]

/-- Read back, a number is what fits its octets. -/
theorem toNatBE_ofNatBE (n v : Nat) : toNatBE (ofNatBE n v) = v % 256 ^ n := by
  induction n with
  | zero => simp [ofNatBE, Nat.mod_one]
  | succ n ih =>
    rw [ofNatBE, toNatBE_cons, length_ofNatBE, ih, Nat.pow_succ, Nat.mod_mul]
    simp only [UInt8.toNat_ofNat', Nat.reducePow]
    rw [Nat.mul_comm, Nat.add_comm]

/-! ## §2. Words. -/

/-- The words of `w` octets that make up `bs`; the last one may be shorter.
A width of zero counts as one. -/
def words (w : Nat) (bs : Bytes) : List Bytes := go [] bs
where
  go (done : List Bytes) : Bytes → List Bytes
    | [] => done.reverse
    | b :: rest => go ((b :: rest.take (w - 1)) :: done) (rest.drop (w - 1))
  termination_by bs => bs.length
  decreasing_by simp only [List.length_drop, List.length_cons]; omega

theorem words_go (w : Nat) (done : List Bytes) (bs : Bytes) :
    words.go w done bs = done.reverse ++ words w bs := by
  match bs with
  | [] => simp [words, words.go]
  | b :: rest =>
    have ih := fun d => words_go w d (rest.drop (w - 1))
    have h : words w (b :: rest) = words.go w [] (b :: rest) := rfl
    rw [h, words.go, ih, words.go, ih]
    simp
termination_by bs.length
decreasing_by simp only [List.length_drop, List.length_cons]; omega

@[simp] theorem words_nil (w : Nat) : words w [] = [] := by
  simp [words, words.go]

theorem words_cons (w : Nat) (b : UInt8) (rest : Bytes) :
    words w (b :: rest) = (b :: rest.take (w - 1)) :: words w (rest.drop (w - 1)) := by
  rw [words, words.go, words_go]
  simp

/-- Nothing is lost or reordered by the cut. -/
theorem flatten_words (w : Nat) (bs : Bytes) : (words w bs).flatten = bs := by
  match bs with
  | [] => simp
  | b :: rest =>
    rw [words_cons, List.flatten_cons, flatten_words w (rest.drop (w - 1))]
    simp
termination_by bs.length
decreasing_by simp only [List.length_drop, List.length_cons]; omega

end Bytes
end NetBoard
