import FerroProtocols.Cargo.Publish

/-! The layout of the body of a publish, and the bodies that are accepted. -/

namespace FerroProtocols.Cargo

open BlobStore BigEndian
open Oci (Value)

/-- A number as four bytes, the least significant byte first. -/
def toLeBytes (number : UInt32) : Bytes := (toBytes number).reverse

/-- The length that is written for some bytes; one that does not fit is written as the largest that does. -/
def lengthField (bytes : Bytes) : UInt32 := if bytes.length < 2 ^ 32 then UInt32.ofNat bytes.length else 4294967295

/-- Bytes behind their length. -/
def field (bytes : Bytes) : Bytes := toLeBytes (lengthField bytes) ++ bytes

/-- Build the body of a publish, given how JSON is written. -/
def encode (toVec : Value → Bytes) (manifest : Value) (tarball : Bytes) : Bytes :=
  field (toVec manifest) ++ field tarball

section Fields

variable {bytes rest body : Bytes}

private theorem toNat_lengthField (short : bytes.length < 2 ^ 32) : (lengthField bytes).toNat = bytes.length := by
  rw [lengthField, if_pos short]
  exact UInt32.toNat_ofNat_of_lt' short

private theorem readU32Le_field (short : bytes.length < 2 ^ 32) :
    readU32Le (field bytes ++ rest) = .ok (bytes.length, bytes ++ rest) := by
  have word := Option.some.inj (wordAt_toBytes (lengthField bytes) [])
  have read : readU32Le (field bytes ++ rest) = .ok ((lengthField bytes).toNat, bytes ++ rest) :=
    congrArg (fun word : UInt32 => Except.ok (word.toNat, bytes ++ rest)) word
  rw [read, toNat_lengthField short]

private theorem field_of_readU32Le {length : Nat} (read : readU32Le body = .ok (length, rest))
    (fits : length ≤ rest.length) :
    body = field (rest.take length) ++ rest.drop length ∧ (rest.take length).length < 2 ^ 32 := by
  unfold readU32Le at read
  split at read
  · rename_i a b c d tail
    cases read
    have size : (rest.take (ofBytes d c b a).toNat).length = (ofBytes d c b a).toNat := List.length_take_of_le fits
    have short : (rest.take (ofBytes d c b a).toNat).length < 2 ^ 32 := by
      rw [size]
      exact (ofBytes d c b a).toNat_lt
    -- The length that was read is the one that is written.
    have written : lengthField (rest.take (ofBytes d c b a).toNat) = ofBytes d c b a := by
      rw [← UInt32.toNat_inj, toNat_lengthField short, size]
    refine ⟨?_, short⟩
    rw [field, written, toLeBytes, toBytes_ofBytes, List.append_assoc, List.take_append_drop]
    rfl
  · cases read

/-- Two fields with the same bytes in front are the same, and so is what follows them. -/
theorem field_append_inj {other after : Bytes} (short : bytes.length < 2 ^ 32) (shortToo : other.length < 2 ^ 32)
    (same : field bytes ++ rest = field other ++ after) : bytes = other ∧ rest = after := by
  have read := @readU32Le_field _ rest short
  rw [same, readU32Le_field shortToo] at read
  obtain ⟨length, joined⟩ := Prod.mk.inj (Except.ok.inj read)
  exact List.append_inj joined.symm length.symm

end Fields

/-- The body is the layout of a manifest and a tarball, and nothing else. -/
def CargoServer.IsLayout (server : CargoServer) (body : Bytes) (manifest : Value) (tarball : Bytes) : Prop :=
  ∃ metadata, body = field metadata ++ field tarball ∧ metadata.length < 2 ^ 32 ∧ tarball.length < 2 ^ 32 ∧
    server.fromSlice metadata = .ok manifest

/-- A body is accepted exactly if it begins with the two fields of the layout, so that an accepted one is the layout
exactly if nothing follows them; what is encoded is read back. -/
theorem publish_parsed_iff (server : CargoServer) (body : Bytes) (manifest : Value) (tarball : Bytes) :
    (server.parse body = .ok ⟨manifest, tarball⟩ ↔
      ∃ metadata surplus, body = field metadata ++ field tarball ++ surplus ∧
        metadata.length < 2 ^ 32 ∧ tarball.length < 2 ^ 32 ∧ server.fromSlice metadata = .ok manifest) ∧
      (∀ metadata surplus, body = field metadata ++ field tarball ++ surplus → metadata.length < 2 ^ 32 →
        tarball.length < 2 ^ 32 → server.fromSlice metadata = .ok manifest →
        ((server.parse body = .ok ⟨manifest, tarball⟩ ↔ server.IsLayout body manifest tarball) ↔ surplus = [])) ∧
      ∀ toVec : Value → Bytes, server.fromSlice (toVec manifest) = .ok manifest → (toVec manifest).length < 2 ^ 32 →
        tarball.length < 2 ^ 32 → server.parse (encode toVec manifest tarball) = .ok ⟨manifest, tarball⟩ := by
  have accepts {metadata surplus : Bytes} (short : metadata.length < 2 ^ 32) (shortToo : tarball.length < 2 ^ 32)
      (json : server.fromSlice metadata = .ok manifest) :
      server.parse (field metadata ++ field tarball ++ surplus) = .ok ⟨manifest, tarball⟩ := by
    rw [List.append_assoc, CargoServer.parse, readU32Le_field short]
    simp [json, readU32Le_field shortToo]
  refine ⟨⟨fun parsed => ?_, ?_⟩, ?_, fun toVec json short shortToo => ?_⟩
  · unfold CargoServer.parse at parsed
    split at parsed
    · cases parsed
    rename_i length rest read
    split at parsed
    · cases parsed
    rename_i fits
    split at parsed
    · cases parsed
    rename_i json
    split at parsed
    · cases parsed
    rename_i crateLength last readToo
    split at parsed
    · cases parsed
    rename_i fitsToo
    cases parsed
    obtain ⟨front, short⟩ := field_of_readU32Le read (Nat.le_of_not_lt fits)
    obtain ⟨back, shortToo⟩ := field_of_readU32Le readToo (Nat.le_of_not_lt fitsToo)
    exact ⟨_, _, by rw [front, back, List.append_assoc], short, shortToo, json⟩
  · rintro ⟨metadata, surplus, rfl, short, shortToo, json⟩
    exact accepts short shortToo json
  · rintro metadata surplus rfl short shortToo json
    rw [iff_true_left (accepts short shortToo json)]
    constructor
    · rintro ⟨other, same, shortOther, _⟩
      rw [List.append_assoc] at same
      exact List.append_right_eq_self.mp (field_append_inj short shortOther same).2
    · rintro rfl
      exact ⟨metadata, List.append_nil _, short, shortToo, json⟩
  · have encoded := @accepts _ [] short shortToo json
    rwa [List.append_nil] at encoded

/-- A registry that reads the empty object only. -/
def CargoServer.bare : CargoServer where
  hashes := .table
  digits := .asciiOnly
  fromSlice bytes := if bytes = textBytes "\x7b\x7d" then .ok (.object [])
    else .error "expected value at line 1 column 1"
  describe := fun _ => ""

/-- A body with one more byte behind the tarball is accepted as well. -/
theorem surplus_accepted : CargoServer.bare.parse [2, 0, 0, 0, 123, 125, 0, 0, 0, 0, 7] = .ok ⟨.object [], []⟩ ∧
    ∀ metadata, [2, 0, 0, 0, 123, 125, 0, 0, 0, 0, 7] ≠ field metadata ++ field [] := by
  refine ⟨rfl, fun metadata same => ?_⟩
  have size := congrArg List.length same
  simp [field, toLeBytes] at size
  obtain ⟨a, b, c, rfl⟩ := List.length_eq_three.mp (show metadata.length = 3 by omega)
  -- The length of what lies before the second field is not written in the first one.
  have first : some (2 : UInt8) = some 3 := congrArg List.head? same
  cases first

end FerroProtocols.Cargo
