/-!
Flag words. A record kind lists its boolean and small-enum attributes as an
ordered table of fields; one routine packs a table into a word, first field
in the most significant bits, and one unpacks it from the low end, so writer
and reader never disagree on bit positions. A field's value is masked to its
width when packed.
-/

namespace IrStream

/-- One packed attribute of records of type `ρ`: its name in reports, its
width in bits, and how to read and write it as a number. Boolean attributes
read as 0 or 1 and are set by any nonzero number. -/
structure FlagField (ρ : Type) where
  name : String
  width : Nat
  get : ρ → Nat
  set : ρ → Nat → ρ

namespace FlagField

/-- A boolean attribute. -/
def bool (name : String) (get : ρ → Bool) (set : ρ → Bool → ρ) : FlagField ρ :=
  ⟨name, 1, fun r => if get r then 1 else 0, fun r n => set r (n != 0)⟩

/-- A small-enum attribute stored in a byte and packed in `width` bits. -/
def byte (name : String) (width : Nat) (get : ρ → UInt8) (set : ρ → UInt8 → ρ) : FlagField ρ :=
  ⟨name, width, fun r => (get r).toNat, fun r n => set r n.toUInt8⟩

end FlagField

namespace Flags

/-- Total width of a field table. -/
def width (fields : List (FlagField ρ)) : Nat := fields.foldl (fun n f => n + f.width) 0

/-- Pack the attributes of `value`, first field in the most significant bits. -/
def pack (fields : List (FlagField ρ)) (value : ρ) : Nat :=
  fields.foldl (fun word f => word * Nat.pow 2 f.width + f.get value % Nat.pow 2 f.width) 0

/-- Set the attributes of `value` from the low end of `word`, last field first. -/
def unpack (fields : List (FlagField ρ)) (word : Nat) (value : ρ) : ρ :=
  (fields.reverse.foldl (fun (acc : Nat × ρ) f =>
    (acc.1 / Nat.pow 2 f.width, f.set acc.2 (acc.1 % Nat.pow 2 f.width))) (word, value)).2

/-- The attributes of `value` that differ from `base`, with their numbers. -/
def changed (fields : List (FlagField ρ)) (base value : ρ) : List (FlagField ρ × Nat) :=
  (fields.filter fun f => f.get value != f.get base).map fun f => (f, f.get value)

/-- The field called `name`. -/
def find? (fields : List (FlagField ρ)) (name : String) : Option (FlagField ρ) :=
  fields.find? (·.name == name)

end Flags

end IrStream
