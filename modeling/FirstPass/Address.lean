import FirstPass.Text.Decimal
import FirstPass.Text.Field

namespace FirstPass

/-!
Addresses.

An address is a signed number of 64 bits.  Arithmetic on addresses is done
on the integers, and the result is an address only if it lies in the range:
there is no wrapping, so an `Address` is an integer with the proof that it
fits.
-/

/-- Whether an integer lies in the range of addresses. -/
abbrev Address.Fits (number : Int) : Prop :=
  -9223372036854775808 ≤ number ∧ number ≤ 9223372036854775807

/-- An integer in the range of addresses. -/
structure Address where
  value : Int
  fits : Address.Fits value
deriving DecidableEq, Repr

namespace Address

/-- The address with a given value, if there is one. -/
def ofInt? (number : Int) : Option Address :=
  if fits : Fits number then some ⟨number, fits⟩ else none

theorem ofInt?_of_fits {number : Int} (fits : Fits number) : ofInt? number = some ⟨number, fits⟩ :=
  dif_pos fits

theorem ofInt?_of_not_fits {number : Int} (outOfRange : ¬ Fits number) : ofInt? number = none :=
  dif_neg outOfRange

/-- An integer is the value of an address exactly if it fits. -/
theorem ofInt?_eq_some_iff {number : Int} {address : Address} :
    ofInt? number = some address ↔ address.value = number := by
  obtain ⟨value, fits⟩ := address
  unfold ofInt?
  split
  · simp only [Option.some.injEq, mk.injEq]
    exact eq_comm
  · rename_i absent
    simp only [reduceCtorEq, false_iff]
    intro same
    exact absent (same ▸ fits)

def zero : Address :=
  ⟨0, by decide⟩

instance : Inhabited Address :=
  ⟨zero⟩

/-- The address at a distance, unless it lies out of range. -/
def offset? (address : Address) (distance : Int) : Option Address :=
  ofInt? (address.value + distance)

/-- The decimal text of an address. -/
def text (address : Address) : String :=
  Decimal.ofInt address.value

/-- The text of an address in a field. -/
def textIn (address : Address) (field : Field) : String :=
  field.integer address.value

end Address
end FirstPass
