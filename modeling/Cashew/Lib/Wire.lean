import Cashew.Lib.OrdMap

/-!
# Enumerations read from the wire

A C++ `enum class E : uint8_t` holds any byte: decoders `static_cast` whatever
byte they find. `Wire E` is that type — an enumerator, or a code that no
enumerator has — and `toByte`/`ofByte` are the two casts. The proof field of
`unlisted` keeps each byte to one representation, so the casts are mutually
inverse and equality of values is equality of bytes.
-/

namespace Cashew.Lib

/-- An enumeration with the code of each enumerator. -/
class Enumeration (E : Type) where
  all : List E
  code : E → UInt8
  complete : ∀ e : E, e ∈ all
  codes_nodup : (all.map code).Nodup

theorem Enumeration.code_injective {E : Type} [Enumeration E] :
    Function.Injective (Enumeration.code : E → UInt8) := by
  intro a b h
  exact List.inj_on_of_nodup_map Enumeration.codes_nodup (Enumeration.complete a)
    (Enumeration.complete b) h

/-- A value of the enumeration's C++ type. -/
inductive Wire (E : Type) [Enumeration E] where
  | listed (e : E)
  | unlisted (code : UInt8) (h : ∀ e : E, Enumeration.code e ≠ code)

namespace Wire

variable {E : Type} [Enumeration E]

/-- `static_cast<uint8_t>(value)`. -/
def toByte : Wire E → UInt8
  | .listed e => Enumeration.code e
  | .unlisted code _ => code

/-- `static_cast<E>(byte)`. -/
def ofByte (b : UInt8) : Wire E :=
  match h : (Enumeration.all : List E).find? (fun e => Enumeration.code e == b) with
  | some e => .listed e
  | none => .unlisted b fun e he => by
      have hnone := List.find?_eq_none.mp h e (Enumeration.complete e)
      simp [he] at hnone

theorem toByte_injective : Function.Injective (toByte : Wire E → UInt8) := by
  intro a b h
  cases a with
  | listed e =>
    cases b with
    | listed e' => exact congrArg Wire.listed (Enumeration.code_injective h)
    | unlisted code hcode => exact absurd h (hcode e)
  | unlisted code hcode =>
    cases b with
    | listed e' => exact absurd h.symm (hcode e')
    | unlisted code' hcode' =>
      have : code = code' := h
      subst this
      rfl

@[simp] theorem toByte_ofByte (b : UInt8) : (ofByte b : Wire E).toByte = b := by
  unfold ofByte
  split
  · rename_i e he
    have hfound := List.find?_some he
    simpa [toByte] using hfound
  · rfl

@[simp] theorem ofByte_toByte (w : Wire E) : ofByte w.toByte = w :=
  toByte_injective (toByte_ofByte w.toByte)

instance : DecidableEq (Wire E) := fun a b =>
  decidable_of_iff (a.toByte = b.toByte) toByte_injective.eq_iff

/-- Enumeration values compare by their codes. -/
instance : LinearOrder (Wire E) :=
  orderBy (fun w => w.toByte.toNat) fun _ _ h => toByte_injective (UInt8.toNat_inj.mp h)

end Wire

end Cashew.Lib
