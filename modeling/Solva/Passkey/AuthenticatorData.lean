import Solva.Codec.BigEndian
import Solva.Passkey.PublicKey

/-!
# Which keys come out of authenticator data

A COSE key whose number of entries stands in the initial byte decodes to its
coordinates. What else the walk accepts: a number of entries behind the initial byte,
of which it takes the low five bits of that byte instead, and a last coordinate that
the end of the data cuts to 32 bytes.
-/

namespace Solva.Passkey

open Codec BigEndian Cbor

/-! ## What authenticators encode -/

/-- What stands around the key. -/
structure Surroundings where
  rpIdHash : List UInt8
  flags : UInt8
  signCount : List UInt8
  aaguid : List UInt8
  credentialId : List UInt8
  extensions : List UInt8
  rpIdHash_length : rpIdHash.length = 32
  attested : flags &&& 0x40 ≠ 0
  signCount_length : signCount.length = 4
  aaguid_length : aaguid.length = 16
  credentialId_lt : credentialId.length < 65536

/-- Nothing around the key but what has to be there. -/
def blank : Surroundings :=
  ⟨List.replicate 32 0, 0x40, List.replicate 4 0, List.replicate 16 0, [], [], rfl, by decide, rfl,
    rfl, by decide⟩

end Solva.Passkey
