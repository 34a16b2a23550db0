import ServiceRuntime.Seri.Encoding

namespace ServiceRuntime
namespace Seri

open Foundation

/-!
# The blocks of a pack that fails

Only the branch of `pack_one` for an unsupported type frees the blocks before it
raises.  Every other error passes by `wb_free`, and leaves the blocks behind the
first one allocated.  The first block lies on the stack, so nothing is lost as
long as the bytes written before the error fit into it.
-/

/-- On success only the buffer is left of what was allocated, and when the run
raises nothing is; nothing is freed twice. -/
def Releases : EStateM.Result PackError Writer (Nat × List UInt8) -> Prop :=
  Ends (fun buffer after => after.blocks.Released [buffer.1])
    (fun error after => error.Proper ∧ after.blocks.Released [])

/-- The walk breaks off, if at all, at a value of an unsupported type or while
the bytes before it fit into the block on the stack; a table that is refused
memory has taken the place of its tag. -/
def GentleOutline : EStateM.Result PackError Walk Unit -> Prop :=
  Ends (fun _ _ => True) Gentle

/-- A pack leaves nothing behind exactly when the walk over its values breaks
off gently or not at all. -/
theorem failed_pack_releases_iff (grants : Nat -> Option Refusal) (heap : List Content)
    (values : List Value) :
    Releases (seriPack grants heap values) ↔ GentleOutline (outline grants heap values) := by
  have alike := seriPack_follows grants heap values
  have ends := outline_ends grants heap values
  cases packed : seriPack grants heap values with
  | ok buffer after =>
      cases walked : outline grants heap values with
      | ok _ later =>
          rw [packed, walked] at alike
          exact ⟨fun _ => trivial, fun _ => Packed.released alike⟩
      | error error later =>
          rw [packed, walked] at alike
          exact False.elim alike
  | error error after =>
      cases walked : outline grants heap values with
      | ok _ later =>
          rw [packed, walked] at alike
          exact False.elim alike
      | error other later =>
          rw [packed, walked] at alike
          rw [walked] at ends
          obtain ⟨rfl, spoils⟩ := alike
          exact ⟨fun released => spoils.mp released.2, fun gentle => ⟨ends, spoils.mpr gentle⟩⟩

/-- What must hold of the first block that is allocated when a run raises. -/
theorem Releases.first {outcome : EStateM.Result PackError Writer (Nat × List UInt8)}
    (releases : Releases outcome) :
    Ends (fun _ _ => True)
      (fun _ after => after.blocks.allocated = 1 -> after.blocks.freed.count 1 = 1) outcome := by
  apply Ends.imp releases
  · exact fun _ _ _ => trivial
  · intro error after ⟨_, released⟩ one
    rw [released 1, if_pos ⟨Nat.le_refl 1, Nat.le_of_eq one.symm, List.not_mem_nil⟩]

/-- A string that fills the first block, and a Lua function after it. -/
theorem failed_pack_leaks :
    ¬Releases (seriPack (fun _ => none) [] [.string (List.replicate 126 0), .closure]) := by
  intro releases
  exact absurd releases.first (by decide +kernel)

end Seri
end ServiceRuntime
