/-! Vectors of three single-precision numbers. Comparisons that meet a NaN prefer
the other operand, so a NaN on one side never spreads into a box. -/

namespace TerrainStream.Space

/-- The smaller of two numbers; a NaN gives way to the other operand. -/
def lesser (a b : Float32) : Float32 :=
  if a.isNaN then b else if b.isNaN then a else if b < a then b else a

def greater (a b : Float32) : Float32 :=
  if a.isNaN then b else if b.isNaN then a else if a < b then b else a

/-- A world coordinate as the nearest single-precision number. -/
def ofWhole (n : Int) : Float32 := Float32.ofInt (Int32.ofInt n).toInt

/-- The whole number below a value, held to the signed 32-bit range; NaN gives 0. -/
def floorWhole (v : Float32) : Int :=
  if v.isNaN then 0
  else
    let bits := v.toBits.toNat
    let exponent := (bits >>> 23) % 256
    let fraction := bits % (1 <<< 23)
    -- A value is a whole number times a power of two. The least exponent stands for numbers without a leading bit, the
    -- greatest for an infinity, which the range cuts off like any other large value.
    let whole : Int := if exponent = 0 then fraction else (fraction + (1 <<< 23) : Nat)
    let signed := if bits >>> 31 = 0 then whole else -whole
    let power := max exponent 1
    let below := if power < 150 then signed / (1 <<< (150 - power) : Nat) else signed * (1 <<< (power - 150) : Nat)
    max Int32.minValue.toInt (min below Int32.maxValue.toInt)

/-- The whole part of a value, held to the signed 32-bit range; NaN gives 0. -/
def truncWhole (v : Float32) : Int := v.toInt32.toInt

structure Vec3 where
  x : Float32
  y : Float32
  z : Float32
deriving Inhabited

namespace Vec3

def splat (v : Float32) : Vec3 := ⟨v, v, v⟩

def zero : Vec3 := splat 0.0

def map₂ (f : Float32 → Float32 → Float32) (a b : Vec3) : Vec3 := ⟨f a.x b.x, f a.y b.y, f a.z b.z⟩

instance : Add Vec3 := ⟨map₂ (· + ·)⟩
instance : Sub Vec3 := ⟨map₂ (· - ·)⟩
instance : Neg Vec3 := ⟨fun a => ⟨-a.x, -a.y, -a.z⟩⟩
instance : HMul Vec3 Float32 Vec3 := ⟨fun a k => ⟨a.x * k, a.y * k, a.z * k⟩⟩

def min (a b : Vec3) : Vec3 := map₂ lesser a b

def max (a b : Vec3) : Vec3 := map₂ greater a b

def lengthSq (a : Vec3) : Float32 := a.x * a.x + a.y * a.y + a.z * a.z

def isFinite (a : Vec3) : Bool := a.x.isFinite && a.y.isFinite && a.z.isFinite

end Vec3

end TerrainStream.Space
