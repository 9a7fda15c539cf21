/-!
# Octet strings

Big-endian numbers of a fixed width. Main statements: `Bytes.toNat_ofNat` and `Bytes.ofNat_toNat`,
which say that a number below the width's bound and its octets determine each other.
-/

namespace Parley

/-- A string of octets. -/
abbrev Bytes := List UInt8

namespace Bytes

/-- The number of octet strings of a width. -/
def bound (width : Nat) : Nat := Nat.pow 256 width

theorem bound_succ (width : Nat) : bound (width + 1) = bound width * 256 := rfl

theorem bound_pos (width : Nat) : 0 < bound width := Nat.pow_pos (by decide)

/-- The `width` low octets of a number, the most significant first. -/
def ofNat : (width : Nat) → (n : Nat) → Bytes
  | 0, _ => []
  | width + 1, n => UInt8.ofNat (n / bound width) :: ofNat width n

/-- The number whose octets are given, the most significant first. -/
def toNat (bs : Bytes) : Nat :=
  bs.foldl (fun acc b => acc * 256 + b.toNat) 0

def ofUInt32 (n : UInt32) : Bytes := ofNat 4 n.toNat

/-- A signed word of four octets, in two's complement. -/
def ofInt32 (n : Int32) : Bytes := ofUInt32 n.toUInt32

/-- A signed word of eight octets, in two's complement. -/
def ofInt64 (n : Int64) : Bytes := ofNat 8 n.toUInt64.toNat

def ofString (s : String) : Bytes := s.toUTF8.data.toList

@[simp] theorem length_ofNat (width n : Nat) : (ofNat width n).length = width := by
  induction width with
  | zero => rfl
  | succ width ih => simp [ofNat, ih]

theorem foldl_toNat (bs : Bytes) (acc : Nat) :
    bs.foldl (fun acc b => acc * 256 + b.toNat) acc = acc * bound bs.length + toNat bs := by
  unfold toNat
  induction bs generalizing acc with
  | nil => simp [bound]
  | cons b bs ih =>
    rw [List.foldl_cons, List.foldl_cons, ih, ih (0 * 256 + b.toNat), List.length_cons, bound_succ,
      Nat.zero_mul, Nat.zero_add, Nat.add_mul, Nat.mul_assoc, Nat.mul_comm 256, Nat.add_assoc]

theorem toNat_cons (b : UInt8) (bs : Bytes) :
    toNat (b :: bs) = b.toNat * bound bs.length + toNat bs := by
  have h := foldl_toNat bs b.toNat
  rw [← h]
  simp [toNat]

theorem toNat_lt (bs : Bytes) : toNat bs < bound bs.length := by
  induction bs with
  | nil => exact Nat.one_pos
  | cons b bs ih =>
    rw [toNat_cons, List.length_cons, bound_succ]
    have hb : b.toNat < 256 := b.toNat_lt
    calc b.toNat * bound bs.length + toNat bs < b.toNat * bound bs.length + bound bs.length := by
          omega
      _ = (b.toNat + 1) * bound bs.length := by rw [Nat.add_mul, Nat.one_mul]
      _ ≤ 256 * bound bs.length := Nat.mul_le_mul_right _ hb
      _ = bound bs.length * 256 := Nat.mul_comm _ _

/-- Reading the octets of a number gives the number back, up to the width's bound. -/
theorem toNat_ofNat (width n : Nat) : toNat (ofNat width n) = n % bound width := by
  induction width with
  | zero => simp [ofNat, toNat, bound, Nat.mod_one]
  | succ width ih =>
    have hsplit : n % bound (width + 1) = n % bound width + bound width * (n / bound width % 256) :=
      Nat.mod_mul
    rw [ofNat, toNat_cons, length_ofNat, ih, UInt8.toNat_ofNat', hsplit, Nat.mul_comm,
      Nat.add_comm]

/-- Every string of octets is the writing of the number it reads as. -/
theorem ofNat_toNat (bs : Bytes) : ofNat bs.length (toNat bs) = bs := by
  have key : ∀ (cs : Bytes) (k : Nat), ofNat cs.length (k * bound cs.length + toNat cs) = cs := by
    intro cs
    induction cs with
    | nil => intro k; rfl
    | cons b cs ih =>
      intro k
      have hlt := toNat_lt cs
      have hpos := bound_pos cs.length
      have hsum : k * bound (cs.length + 1) + toNat (b :: cs) =
          (k * 256 + b.toNat) * bound cs.length + toNat cs := by
        rw [toNat_cons, bound_succ, Nat.add_mul, Nat.add_assoc, Nat.mul_assoc,
          Nat.mul_comm (bound cs.length) 256]
      rw [List.length_cons, hsum, ofNat, ih]
      congr 1
      rw [Nat.mul_comm, Nat.mul_add_div hpos, Nat.div_eq_of_lt hlt, Nat.add_zero]
      apply UInt8.toNat_inj.mp
      rw [UInt8.toNat_ofNat']
      have hb : b.toNat < 256 := b.toNat_lt
      omega
  simpa using key bs 0

end Bytes

end Parley
