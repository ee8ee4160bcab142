import Mathlib
import IrStream.Flags.Tree

/-!
Flag words read back. `Flags.pack` puts each field's number, cut to the
field's width, below the fields before it, and `Flags.unpack` takes them off
from the low end, last field first; so unpacking a packed word sets every
field of the table to its number cut to its width (`Flags.unpack_pack`).
`Flags.restrict` names what that gives when every number fits: the value's
fields of the table set over a base, the others left as the base has them.

When the fields of a table name different attributes (`Flags.Distinct`:
each field reads back what fits its width, and setting one leaves what the
others read), each attribute of the table reads back the value's number cut
to its width and every attribute outside it keeps the base's
(`Flags.get_unpack_pack`, `Flags.get_unpack_of_untouched`); and every word
that fits the table's width is the packing of what it unpacks to
(`Flags.pack_unpack`).

For tree nodes, `TreeFlags.Canonical` says that a node's attributes are as
its kind streams them: every attribute outside the kind's groups at its
default, and the multi-bit attributes within their widths. Such attributes
survive packing and unpacking (`TreeFlags.unpack_pack`), and every packed
word fits in 47 bits (`TreeFlags.pack_lt`).
-/

namespace IrStream

namespace Flags

variable {ρ : Type}

/-- The fields of the table taken from `value` and set over `base`, last field first. -/
def restrict (fields : List (FlagField ρ)) (value base : ρ) : ρ :=
  fields.foldr (fun f r => f.set r (f.get value)) base

theorem width_append (fields : List (FlagField ρ)) (f : FlagField ρ) :
    width (fields ++ [f]) = width fields + f.width := by
  simp [width, List.foldl_append]

theorem pack_append (fields : List (FlagField ρ)) (f : FlagField ρ) (value : ρ) :
    pack (fields ++ [f]) value = pack fields value * 2 ^ f.width + f.get value % 2 ^ f.width := by
  simp [pack, List.foldl_append, Nat.pow_eq]

theorem unpack_append (fields : List (FlagField ρ)) (f : FlagField ρ) (word : Nat) (base : ρ) :
    unpack (fields ++ [f]) word base =
      unpack fields (word / 2 ^ f.width) (f.set base (word % 2 ^ f.width)) := by
  simp [unpack, List.reverse_append, Nat.pow_eq]

/-- A packed word has no bits above the table's width. -/
theorem pack_lt (fields : List (FlagField ρ)) (value : ρ) : pack fields value < 2 ^ width fields := by
  induction fields using List.reverseRecOn with
  | nil => simp [pack, width]
  | append_singleton fields f ih =>
    rw [pack_append, width_append, Nat.pow_add]
    have low : f.get value % 2 ^ f.width < 2 ^ f.width := Nat.mod_lt _ (by positivity)
    calc pack fields value * 2 ^ f.width + f.get value % 2 ^ f.width
        < pack fields value * 2 ^ f.width + 2 ^ f.width := by omega
      _ = (pack fields value + 1) * 2 ^ f.width := by ring
      _ ≤ 2 ^ width fields * 2 ^ f.width := Nat.mul_le_mul_right _ ih

/-- Unpacking a packed word sets every field to its number cut to its width. -/
theorem unpack_pack (fields : List (FlagField ρ)) (value base : ρ) :
    unpack fields (pack fields value) base =
      fields.foldr (fun f r => f.set r (f.get value % 2 ^ f.width)) base := by
  induction fields using List.reverseRecOn generalizing base with
  | nil => simp [unpack, pack]
  | append_singleton fields f ih =>
    have positive : 0 < 2 ^ f.width := by positivity
    have low : f.get value % 2 ^ f.width < 2 ^ f.width := Nat.mod_lt _ positive
    have above : (pack fields value * 2 ^ f.width + f.get value % 2 ^ f.width) / 2 ^ f.width =
        pack fields value := by
      rw [Nat.add_comm, Nat.add_mul_div_right _ _ positive, Nat.div_eq_of_lt low, Nat.zero_add]
    have below : (pack fields value * 2 ^ f.width + f.get value % 2 ^ f.width) % 2 ^ f.width =
        f.get value % 2 ^ f.width := by
      rw [Nat.add_comm, Nat.add_mul_mod_self_right, Nat.mod_eq_of_lt low]
    rw [unpack_append, pack_append, above, below, ih, List.foldr_append]
    rfl

/-- When every field's number fits its width, unpacking a packed word gives
the value's fields over the base. -/
theorem unpack_pack_of_fits {fields : List (FlagField ρ)} {value : ρ}
    (fits : ∀ f ∈ fields, f.get value < 2 ^ f.width) (base : ρ) :
    unpack fields (pack fields value) base = restrict fields value base := by
  rw [unpack_pack, restrict]
  apply List.foldr_ext
  intro f member r
  rw [Nat.mod_eq_of_lt (fits f member)]

/-! ### Tables whose fields name distinct attributes -/

end Flags

namespace FlagField

variable {ρ : Type}

/-- Setting `f` leaves what `g` reads as it was. -/
def Untouched (f g : FlagField ρ) : Prop := ∀ r n, g.get (f.set r n) = g.get r

/-- Two fields name different attributes: setting either leaves the other as it was. -/
def Apart (f g : FlagField ρ) : Prop := f.Untouched g ∧ g.Untouched f

/-- A field reads back every number that fits its width. -/
def Lawful (f : FlagField ρ) : Prop := ∀ r n, n < 2 ^ f.width → f.get (f.set r n) = n

theorem bool_lawful (name : String) {get : ρ → Bool} {set : ρ → Bool → ρ}
    (reads : ∀ r b, get (set r b) = b) : (FlagField.bool name get set).Lawful := by
  intro r n small
  have bit : n < 2 := small
  simp only [FlagField.bool, reads]
  interval_cases n <;> rfl

theorem byte_lawful (name : String) {width : Nat} {get : ρ → UInt8} {set : ρ → UInt8 → ρ}
    (narrow : width ≤ 8) (reads : ∀ r v, get (set r v) = v) :
    (FlagField.byte name width get set).Lawful := by
  intro r n small
  have fits : n < 2 ^ 8 := lt_of_lt_of_le small (Nat.pow_le_pow_right (by norm_num) narrow)
  simp only [FlagField.byte, reads, Nat.toUInt8]
  exact UInt8.toNat_ofNat_of_lt' fits

end FlagField

namespace Flags

variable {ρ : Type}

/-- The fields of a table name pairwise different attributes, and each reads
back every number that fits its width. -/
structure Distinct (fields : List (FlagField ρ)) : Prop where
  lawful : ∀ f ∈ fields, f.Lawful
  apart : fields.Pairwise FlagField.Apart

theorem Distinct.sublist {fields fields' : List (FlagField ρ)} (distinct : Distinct fields)
    (sub : List.Sublist fields' fields) : Distinct fields' :=
  ⟨fun f member => distinct.lawful f (sub.subset member), distinct.apart.sublist sub⟩

/-- An attribute no field of the table touches keeps, through unpacking, the
value of the record unpacked into. -/
theorem get_unpack_of_untouched {fields : List (FlagField ρ)} {g : FlagField ρ}
    (untouched : ∀ f ∈ fields, f.Untouched g) (word : Nat) (base : ρ) :
    g.get (unpack fields word base) = g.get base := by
  induction fields using List.reverseRecOn generalizing word base with
  | nil => rfl
  | append_singleton fields f ih =>
    rw [unpack_append, ih fun f' member => untouched f' (List.mem_append_left _ member),
      untouched f (List.mem_append_right _ (List.mem_singleton_self f))]

/-- Through packing and unpacking, every attribute of the table gets the
value's number cut to its width. -/
theorem get_unpack_pack {fields : List (FlagField ρ)} (distinct : Distinct fields)
    {f : FlagField ρ} (member : f ∈ fields) (value base : ρ) :
    f.get (unpack fields (pack fields value) base) = f.get value % 2 ^ f.width := by
  rw [unpack_pack]
  -- the fields are set last to first, so the head is set last
  induction fields with
  | nil => cases member
  | cons h t ih =>
    obtain ⟨apartHead, apartTail⟩ := List.pairwise_cons.1 distinct.apart
    rw [List.foldr_cons]
    rcases List.mem_cons.1 member with rfl | inTail
    · exact distinct.lawful f List.mem_cons_self _ _ (Nat.mod_lt _ (by positivity))
    · rw [(apartHead f inTail).1]
      exact ih ⟨fun g inT => distinct.lawful g (List.mem_cons_of_mem _ inT), apartTail⟩ inTail

/-- Every word that fits the table's width is the packing of what it unpacks to. -/
theorem pack_unpack {fields : List (FlagField ρ)} (distinct : Distinct fields) {word : Nat}
    (small : word < 2 ^ width fields) (base : ρ) : pack fields (unpack fields word base) = word := by
  induction fields using List.reverseRecOn generalizing word base with
  | nil =>
    have zero : word = 0 := by simpa [width] using small
    simp [pack, zero]
  | append_singleton fields f ih =>
    obtain ⟨apartInit, -, apartLast⟩ := List.pairwise_append.1 distinct.apart
    have positive : 0 < 2 ^ f.width := by positivity
    -- the last field is set first and no other field touches it
    have last : f.get (unpack fields (word / 2 ^ f.width) (f.set base (word % 2 ^ f.width))) =
        word % 2 ^ f.width := by
      rw [get_unpack_of_untouched fun g member => (apartLast g member f (List.mem_singleton_self f)).1]
      exact distinct.lawful f (List.mem_append_right _ (List.mem_singleton_self f)) _ _
        (Nat.mod_lt _ positive)
    have above : word / 2 ^ f.width < 2 ^ width fields := by
      rw [width_append, Nat.pow_add] at small
      exact Nat.div_lt_of_lt_mul (by rwa [Nat.mul_comm])
    have distinctInit : Distinct fields :=
      ⟨fun g member => distinct.lawful g (List.mem_append_left _ member), apartInit⟩
    rw [unpack_append, pack_append, ih distinctInit above, last, Nat.mod_mod]
    exact Nat.div_add_mod' word (2 ^ f.width)

end Flags

namespace TreeFlags

/-- A node's attributes as its kind streams them: every attribute outside the
kind's groups at its default, and the multi-bit attributes within their widths. -/
structure Canonical (code : TreeCode) (flags : TreeFlags) : Prop where
  unstreamed : Flags.restrict (streamed code) flags {} = flags
  visibility_lt : flags.visibility < 4
  builtinClass_lt : flags.builtinClass < 4
  tlsModel_lt : flags.tlsModel < 8

/-- The group lists a kind can stream. -/
theorem groups_cases (code : TreeCode) :
    groups code = [commonGroup, declGroup, linkageGroup, functionGroup] ∨
    groups code = [commonGroup, declGroup, linkageGroup] ∨
    groups code = [commonGroup, declGroup, fieldGroup] ∨
    groups code = [commonGroup, declGroup, labelGroup] ∨
    groups code = [commonGroup, declGroup, parmGroup] ∨
    groups code = [commonGroup, ssaGroup] ∨
    groups code = [commonGroup, declGroup] ∨
    groups code = [commonGroup, typeGroup] ∨
    groups code = [commonGroup, constantGroup] ∨
    groups code = [commonGroup, exprGroup] ∨
    groups code = [commonGroup] := by
  unfold groups
  split <;> (try split_ifs <;> try split) <;> simp

theorem bit_le_one (b : Bool) : (if b = true then 1 else 0) ≤ 1 := by
  split <;> omega

/-- Every streamed attribute of canonical attributes fits its width. -/
theorem streamed_fits {code : TreeCode} {flags : TreeFlags} (canonical : Canonical code flags) :
    ∀ f ∈ streamed code, f.get flags < 2 ^ f.width := by
  have visibility : flags.visibility.toNat < 4 := canonical.visibility_lt
  have builtinClass : flags.builtinClass.toNat < 4 := canonical.builtinClass_lt
  have tlsModel : flags.tlsModel.toNat < 8 := canonical.tlsModel_lt
  -- a code streams some of the tables, so each table is checked once, on its own
  have listed : ∀ g ∈ groups code, g ∈ [commonGroup, constantGroup, exprGroup, ssaGroup, typeGroup,
      declGroup, linkageGroup, functionGroup, fieldGroup, labelGroup, parmGroup] := by
    rcases groups_cases code with h | h | h | h | h | h | h | h | h | h | h <;> simp [h]
  have each : ∀ g ∈ [commonGroup, constantGroup, exprGroup, ssaGroup, typeGroup, declGroup,
      linkageGroup, functionGroup, fieldGroup, labelGroup, parmGroup], ∀ f ∈ g, f.get flags < 2 ^ f.width := by
    simp [commonGroup, constantGroup, exprGroup, ssaGroup, typeGroup, declGroup,
      linkageGroup, functionGroup, fieldGroup, labelGroup, parmGroup, FlagField.bool, FlagField.byte,
      bit_le_one, visibility, builtinClass, tlsModel,
      sideEffectsField, constantField, addressableField, volatileField, readonlyField, isPublicField,
      isStaticField, unsignedField, nothrowField, usedField, isPrivateField, isProtectedField,
      deprecatedField, asmWrittenField, overflowField, noWarningField, tailCallField,
      returnSlotOptField, occursInAbnormalPhiField, isDefaultDefField, inFreeListField,
      stringFlagField, noForceBlkField, needsConstructingField, transparentAggrField, restrictField,
      packedField, userAlignField, nonaliasedComponentField, refCanAliasAllField, externalField,
      artificialField, ignoredField, nonlocalField, isVirtualField, gimpleRegField,
      debugExprFromField, hasValueExprField, weakField, comdatField, commonField, inTextSectionField,
      hardRegisterField, seenInBindExprField, visibilitySpecifiedField, visibilityField,
      tlsModelField, isInlineField, declaredInlineField, uninlinableField, isMallocField,
      isPureField, staticCtorField, staticDtorField, noInstrumentField, noLimitStackField,
      possiblyInlinedField, builtinClassField, bitFieldField, nonaddressableField, forcedLabelField,
      errorIssuedField, byReferenceField]
  intro f member
  obtain ⟨g, inGroups, inGroup⟩ := List.mem_flatten.1 member
  exact each g (listed g inGroups) f inGroup

/-- Every kind packs its attributes into at most 47 bits. -/
theorem width_streamed_le (code : TreeCode) : Flags.width (streamed code) ≤ 47 := by
  rcases groups_cases code with h | h | h | h | h | h | h | h | h | h | h <;>
  rw [streamed, h] <;> decide

theorem pack_lt (code : TreeCode) (flags : TreeFlags) :
    Flags.pack (streamed code) flags < 2 ^ 47 :=
  lt_of_lt_of_le (Flags.pack_lt _ _) (Nat.pow_le_pow_right (by norm_num) (width_streamed_le code))

/-- Canonical attributes survive packing and unpacking. -/
theorem unpack_pack {code : TreeCode} {flags : TreeFlags} (canonical : Canonical code flags) :
    Flags.unpack (streamed code) (Flags.pack (streamed code) flags) {} = flags := by
  rw [Flags.unpack_pack_of_fits (streamed_fits canonical), canonical.unstreamed]

end TreeFlags

end IrStream
