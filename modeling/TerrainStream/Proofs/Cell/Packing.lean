import TerrainStream.Cell.Key

/-! A key packs a coordinate. The numbers of a coordinate are told apart in the key by their places, so nothing of
a key is lost in its coordinate, and of a coordinate only what its numbers have beyond the width of their fields. -/

namespace TerrainStream.Cell

namespace Coord

variable {a b c : Coord} {width : Nat} {v w : Int}

private theorem modulus_pos (width : Nat) : 0 < 1 <<< width := by
  rw [Nat.one_shiftLeft]
  exact Nat.two_pow_pos width

/-- A field holds a number up to multiples of its modulus. -/
theorem field_cast (width : Nat) (v : Int) : (field width v : Int) = v % (1 <<< width : Nat) := by
  have positive := modulus_pos width
  exact Int.toNat_of_nonneg (Int.emod_nonneg v (by omega))

theorem field_lt (width : Nat) (v : Int) : field width v < 1 <<< width := by
  have below := Int.emod_lt_of_pos v (Int.natCast_pos.mpr (modulus_pos width))
  rw [← field_cast] at below
  exact Int.ofNat_lt.mp below

theorem field_inj : field width v = field width w ↔ v % (1 <<< width : Nat) = w % (1 <<< width : Nat) := by
  rw [← field_cast, ← field_cast, Int.natCast_inj]

/-- Whatever ends in a field's bits is read in two's complement as the number that the field holds. -/
theorem bmod_field {n : Nat} (low : n % (1 <<< width) = field width v) :
    (n : Int).bmod (1 <<< width) = v.bmod (1 <<< width) := by
  rw [← Int.emod_bmod n, ← Int.natCast_emod, low, field_cast, Int.emod_bmod]

/-- The fields of a key stand side by side. -/
theorem raw_key (c : Coord) : c.key.raw.toNat = field 22 c.x <<< 42 + field 22 c.z <<< 20 + field 20 c.y := by
  have x := field_lt 22 c.x
  have y := field_lt 20 c.y
  have z := field_lt 22 c.z
  refine UInt64.toNat_ofNat_of_lt' ?_
  simp only [Nat.shiftLeft_eq, UInt64.size] at *
  omega

/-- Each field is found again at its own place. -/
theorem raw_fields (c : Coord) :
    c.key.raw.toNat >>> 42 % (1 <<< 22) = field 22 c.x ∧ c.key.raw.toNat % (1 <<< 20) = field 20 c.y ∧
      c.key.raw.toNat >>> 20 % (1 <<< 22) = field 22 c.z := by
  have x := field_lt 22 c.x
  have y := field_lt 20 c.y
  have z := field_lt 22 c.z
  rw [raw_key]
  simp only [Nat.shiftLeft_eq, Nat.shiftRight_eq_div_pow] at *
  omega

/-- The coordinate of a packed key is what its fields hold in two's complement. -/
theorem coord_key (c : Coord) :
    c.key.coord = ⟨c.x.bmod (1 <<< 22), c.y.bmod (1 <<< 20), c.z.bmod (1 <<< 22)⟩ := by
  have ⟨x, y, z⟩ := c.raw_fields
  unfold Key.coord
  rw [bmod_field x, bmod_field y, bmod_field z]

/-- What was read in two's complement is held again in the same bits. -/
theorem field_bmod (width n : Nat) : field width ((n : Int).bmod (1 <<< width)) = n % (1 <<< width) := by
  rw [← Int.natCast_inj, field_cast, Int.bmod_emod, Int.natCast_emod]

/-- A key is made of the fields of its coordinate. -/
theorem key_coord (k : Key) : k.coord.key = k := by
  have word := k.raw.toNat_lt_size
  have raw := k.coord.raw_key
  unfold Key.coord at raw
  simp only [field_bmod] at raw
  obtain ⟨key⟩ := k
  refine congrArg Key.mk (UInt64.toNat_inj.mp (raw.trans ?_))
  simp only [Nat.shiftLeft_eq, Nat.shiftRight_eq_div_pow, UInt64.size] at *
  omega

theorem key_inj : a.key = b.key ↔
    a.x % (1 <<< 22) = b.x % (1 <<< 22) ∧ a.y % (1 <<< 20) = b.y % (1 <<< 20) ∧
      a.z % (1 <<< 22) = b.z % (1 <<< 22) := by
  have ⟨x, y, z⟩ := a.raw_fields
  have ⟨x', y', z'⟩ := b.raw_fields
  constructor
  · intro same
    rw [same] at x y z
    exact ⟨field_inj.mp (x.symm.trans x'), field_inj.mp (y.symm.trans y'), field_inj.mp (z.symm.trans z')⟩
  · rintro ⟨x, y, z⟩
    rw [key, key, field_inj.mpr x, field_inj.mpr y, field_inj.mpr z]

/-- A number fits a field if it lies between the field's ends. -/
theorem bmod_eq_self_iff (width : Nat) (v : Int) :
    v.bmod (1 <<< (width + 1)) = v ↔ -(1 <<< width) ≤ v ∧ v < 1 <<< width := by
  have positive := modulus_pos width
  have double : 1 <<< (width + 1) = 1 <<< width * 2 := by rw [Nat.shiftLeft_succ, Nat.mul_comm]
  rw [double]
  generalize 1 <<< width = half at positive
  constructor
  · intro same
    have low := Int.le_bmod (x := v) (m := half * 2) (by omega)
    have high := Int.bmod_lt (x := v) (m := half * 2) (by omega)
    omega
  · rintro ⟨low, high⟩
    exact Int.bmod_eq_of_le (by omega) (by omega)

/-- The coordinates that a key keeps are those whose numbers lie in the ranges of their fields. -/
theorem coord_key_eq_self : c.key.coord = c ↔
    (-(1 <<< 21) ≤ c.x ∧ c.x < 1 <<< 21) ∧ (-(1 <<< 19) ≤ c.y ∧ c.y < 1 <<< 19) ∧
      (-(1 <<< 21) ≤ c.z ∧ c.z < 1 <<< 21) := by
  rw [coord_key, ← bmod_eq_self_iff 21, ← bmod_eq_self_iff 19, ← bmod_eq_self_iff 21]
  obtain ⟨x, y, z⟩ := c
  rw [Coord.mk.injEq]

theorem inRange_iff : c.inRange = true ↔ c.key.coord = c := by
  rw [coord_key]
  obtain ⟨x, y, z⟩ := c
  simp only [inRange, fits, Bool.and_eq_true, beq_iff_eq, Coord.mk.injEq, and_assoc]

/-- The low bits of a number, as a mask cuts them out of a word. -/
def masked (width : Nat) (v : Int) : BitVec 64 := BitVec.ofInt 64 v &&& BitVec.ofNat 64 (1 <<< width - 1)

/-- The key as a machine packs it: each number is masked and shifted to its place, and all three are joined. -/
def packed (c : Coord) : BitVec 64 := masked 22 c.x <<< 42 ||| masked 22 c.z <<< 20 ||| masked 20 c.y

theorem toNat_masked (narrow : width < 64) (v : Int) : (masked width v).toNat = field width v := by
  have positive := modulus_pos width
  have divides : 1 <<< width ∣ 1 <<< 64 := by
    rw [Nat.one_shiftLeft, Nat.one_shiftLeft]
    exact Nat.pow_dvd_pow 2 (Nat.le_of_lt narrow)
  have mask : 1 <<< width - 1 < 1 <<< 64 := by
    have most := Nat.le_of_dvd (modulus_pos 64) divides
    omega
  have word : 0 ≤ v % (1 <<< 64 : Nat) := Int.emod_nonneg v (by decide)
  rw [masked, BitVec.toNat_and, BitVec.toNat_ofInt, BitVec.toNat_ofNat, ← Nat.one_shiftLeft, Nat.mod_eq_of_lt mask,
    Nat.one_shiftLeft width, Nat.and_two_pow_sub_one_eq_mod, ← Nat.one_shiftLeft, ← Int.natCast_inj,
    Int.natCast_emod, Int.toNat_of_nonneg word, Int.emod_emod_of_dvd v (Int.natCast_dvd_natCast.mpr divides),
    field_cast]

/-- Masks and shifts come to the same key. -/
theorem raw_eq_packed (c : Coord) : c.key.raw.toBitVec = c.packed := by
  have x := field_lt 22 c.x
  have y := field_lt 20 c.y
  have z := field_lt 22 c.z
  have raw : c.key.raw.toBitVec.toNat = _ := c.raw_key
  have low : field 22 c.z <<< 20 + field 20 c.y < 1 <<< 42 := by
    simp only [Nat.shiftLeft_eq] at *
    omega
  have high : field 22 c.x <<< 42 < 1 <<< 64 ∧ field 22 c.z <<< 20 < 1 <<< 64 := by
    simp only [Nat.shiftLeft_eq] at *
    omega
  rw [Nat.one_shiftLeft] at y low
  refine BitVec.eq_of_toNat_eq ?_
  rw [raw, packed, BitVec.toNat_or, BitVec.toNat_or, BitVec.toNat_shiftLeft, BitVec.toNat_shiftLeft,
    toNat_masked (by decide), toNat_masked (by decide), toNat_masked (by decide), ← Nat.one_shiftLeft,
    Nat.mod_eq_of_lt high.1, Nat.mod_eq_of_lt high.2, Nat.or_assoc, ← Nat.shiftLeft_add_eq_or_of_lt y,
    ← Nat.shiftLeft_add_eq_or_of_lt low, Nat.add_assoc]

end Coord

namespace Key

/-- A number of a key as a machine reads it: shifted to the top of the word, and down again with its sign. -/
def signed (left right : Nat) (raw : BitVec 64) : Int := ((raw <<< left).sshiftRight right).toInt

/-- The coordinate as a machine takes it out of a key. -/
def unpacked (k : Key) : Coord :=
  ⟨signed 0 42 k.raw.toBitVec, signed 44 44 k.raw.toBitVec, signed 22 42 k.raw.toBitVec⟩

theorem signed_eq (raw : BitVec 64) :
    signed 0 42 raw = Int.bmod (raw.toNat >>> 42 : Nat) (1 <<< 22) ∧
      signed 44 44 raw = Int.bmod raw.toNat (1 <<< 20) ∧
      signed 22 42 raw = Int.bmod (raw.toNat >>> 20 : Nat) (1 <<< 22) := by
  have word := raw.isLt
  simp only [signed, BitVec.toInt_sshiftRight, BitVec.toInt_shiftLeft]
  generalize raw.toNat = n at word
  simp only [Int.bmod_def, Nat.shiftLeft_eq, Nat.shiftRight_eq_div_pow, Int.shiftRight_eq_div_pow, Nat.reducePow,
    Nat.one_mul, Int.natCast_ediv] at word ⊢
  refine ⟨?_, ?_, ?_⟩ <;> split <;> split <;> omega

/-- Shifts come to the same coordinate. -/
theorem coord_eq_unpacked (k : Key) : k.coord = k.unpacked := by
  have ⟨x, y, z⟩ := signed_eq k.raw.toBitVec
  unfold coord unpacked
  rw [x, y, z]
  rfl

end Key

/-- Packing loses nothing. A key is packed again from its coordinate; a packed coordinate comes back with its
numbers reduced to 22, 20 and 22 bits in two's complement, so it comes back as it was exactly if it lies in the
range of keys; two coordinates have the same key exactly if their numbers agree up to multiples of the moduli.
Masks and shifts on words come to the same keys and coordinates. -/
theorem keys_pack_coordinates :
    (∀ k : Key, k.coord.key = k) ∧
    (∀ c : Coord, c.key.coord = ⟨c.x.bmod (1 <<< 22), c.y.bmod (1 <<< 20), c.z.bmod (1 <<< 22)⟩) ∧
    (∀ c : Coord, c.key.coord = c ↔
      (-(1 <<< 21) ≤ c.x ∧ c.x < 1 <<< 21) ∧ (-(1 <<< 19) ≤ c.y ∧ c.y < 1 <<< 19) ∧
        (-(1 <<< 21) ≤ c.z ∧ c.z < 1 <<< 21)) ∧
    (∀ c : Coord, c.inRange = true ↔ c.key.coord = c) ∧
    (∀ a b : Coord, a.key = b.key ↔
      a.x % (1 <<< 22) = b.x % (1 <<< 22) ∧ a.y % (1 <<< 20) = b.y % (1 <<< 20) ∧
        a.z % (1 <<< 22) = b.z % (1 <<< 22)) ∧
    (∀ c : Coord, c.key.raw.toBitVec = c.packed) ∧
    (∀ k : Key, k.coord = k.unpacked) :=
  ⟨Coord.key_coord, Coord.coord_key, fun _ => Coord.coord_key_eq_self, fun _ => Coord.inRange_iff,
    fun _ _ => Coord.key_inj, Coord.raw_eq_packed, Key.coord_eq_unpacked⟩

end TerrainStream.Cell
