import Jolt.Text

/-!
# Session identifiers

Every session has an identifier: sixteen bytes in five groups, with the version and the variant of a random identifier.
Within one run they are handed out in turn.
-/

namespace Jolt.SessionId

/-- The identifier of sixteen bytes, whose version and variant bits are set over. -/
def ofBytes (bytes : List UInt8) : Text :=
  let marked := bytes.mapIdx fun i b =>
    if i = 6 then b &&& 0x0f ||| 0x40 else if i = 8 then b &&& 0x3f ||| 0x80 else b
  marked.zipIdx.flatMap fun (b, i) =>
    (if i = 4 ∨ i = 6 ∨ i = 8 ∨ i = 10 then [Byte.minus] else []) ++ Text.hex 2 b.toNat

/-- The `n`-th identifier of a run. -/
def nth (n : Nat) : Text :=
  ofBytes (List.replicate 16 (UInt8.ofNat n))

end Jolt.SessionId
