import FerroProtocols.BlobStore.Digest
import Std.Data.ExtTreeMap

/-! The store that keeps blobs in memory. -/

namespace FerroProtocols.BlobStore

/-- The SHA-512 function, known only by the length of its results. -/
structure Sha512 where
  hash : Bytes → Bytes
  sized : ∀ bytes, (hash bytes).length = 64

/-- The SHA-512 digest of bytes. -/
def Digest.sha512Of (sha : Sha512) (bytes : Bytes) : Digest :=
  .ofHash .sha512 (sha.hash bytes) (by rw [sha.sized]; rfl)

/-- The hash functions of both algorithms. -/
structure Hashes where
  sha256 : Sha256
  sha512 : Sha512

/-- The digest of bytes under an algorithm. -/
def Hashes.digestOf (hashes : Hashes) : DigestAlgo → Bytes → Digest
  | .sha256, bytes => Digest.sha256Of hashes.sha256 bytes
  | .sha512, bytes => Digest.sha512Of hashes.sha512 bytes

/-- Both algorithms, with the digests of a few inputs. -/
def Hashes.table : Hashes where
  sha256 := shaTable
  sha512 :=
    ⟨fun bytes => bytesOf 64 <| if bytes = []
      then 0xcf83e1357eefb8bdf1542850d66d8007d620e4050b5715dc83f4a921d36ce9ce * 2 ^ 256 +
      0x47d0d13c5d85f2b0ff8318d2877eec2f63b931bd47417a81a538327af927da3e else 0, fun _ => length_bytesOf 64 _⟩

namespace Digest

/-- Digests in the order of their texts. -/
instance instOrd : Ord Digest := ⟨compareOn toString⟩

/-- The order of the texts is transitive. -/
instance instTransOrd : Std.TransOrd Digest :=
  inferInstanceAs (Std.TransCmp (compareOn toString))

/-- Only a digest itself has the same text. -/
instance instLawfulEqOrd : Std.LawfulEqOrd Digest where
  eq_of_compare := by
    intro left right same
    change compare left.toString right.toString = .eq at same
    exact toString_injective (Std.LawfulEqCmp.eq_of_compare same)

end Digest

/-- A call of a blob store. -/
inductive BlobCall where
  | put (digest : Digest) (bytes : Bytes)
  | get (digest : Digest)
  | contains (digest : Digest)
  | delete (digest : Digest)
  | list

/-- What a call returns. -/
inductive BlobAnswer where
  -- A put or a delete has succeeded.
  | done
  | bytes (bytes : Bytes)
  | present (found : Bool)
  | digests (digests : List Digest)
  | failed (error : BlobStoreError)
  deriving DecidableEq

/-- Blobs under their digests. -/
structure InMemoryBlobStore where
  inner : Std.ExtTreeMap Digest Bytes

namespace InMemoryBlobStore

/-- The store without any blob. -/
def new : InMemoryBlobStore := ⟨∅⟩

/-- The number of blobs. -/
def len (store : InMemoryBlobStore) : Nat := store.inner.size

/-- Store bytes under their digest; under any other digest they are refused. -/
def put (hashes : Hashes) (store : InMemoryBlobStore) (digest : Digest) (bytes : Bytes) :
    Except BlobStoreError InMemoryBlobStore :=
  let computed := hashes.digestOf digest.algo bytes
  if computed ≠ digest then .error (.digestMismatch digest.toString computed.toString)
  else .ok ⟨store.inner.insert digest bytes⟩

/-- The blob under a digest. -/
def get (store : InMemoryBlobStore) (digest : Digest) : Except BlobStoreError Bytes :=
  match store.inner[digest]? with
  | some bytes => .ok bytes
  | none => .error (.notFound digest.toString)

/-- There is a blob under a digest. -/
def contains (store : InMemoryBlobStore) (digest : Digest) : Bool := store.inner.contains digest

/-- Drop the blob under a digest; that there is none is no error. -/
def delete (store : InMemoryBlobStore) (digest : Digest) : InMemoryBlobStore :=
  ⟨store.inner.erase digest⟩

/-- The digests of all blobs. -/
def list (store : InMemoryBlobStore) : List Digest := store.inner.keys

section Put

variable {hashes : Hashes} {store after : InMemoryBlobStore} {digest : Digest} {bytes : Bytes}
  (accepted : store.put hashes digest bytes = .ok after)

include accepted

/-- Bytes that were accepted are stored under their digest. -/
theorem inner_put : after.inner = store.inner.insert digest bytes := by
  simp only [put] at accepted
  split at accepted
  · cases accepted
  · cases accepted
    rfl

/-- What was accepted is in the store, and so is what was there before. -/
theorem contains_put (other : Digest) :
    after.contains other = true ↔ digest = other ∨ store.contains other = true := by
  simp [contains, inner_put accepted]

/-- What was accepted is returned, and so is what was there before under other digests. -/
theorem get_put (other : Digest) :
    after.get other = if digest = other then .ok bytes else store.get other := by
  simp only [get, inner_put accepted, Std.ExtTreeMap.getElem?_insert, Std.LawfulEqCmp.compare_eq_iff_eq]
  by_cases same : digest = other
  · rw [if_pos same, if_pos same]
  · rw [if_neg same, if_neg same]

/-- A blob that was not there before is one more. -/
theorem len_put : after.len = store.len + if store.contains digest then 0 else 1 := by
  simp only [len, contains, inner_put accepted, Std.ExtTreeMap.size_insert, Std.ExtTreeMap.contains_iff_mem]
  split <;> rfl

end Put

/-- After a blob was dropped the others are there as before. -/
theorem contains_delete (store : InMemoryBlobStore) (digest other : Digest) :
    (store.delete digest).contains other = true ↔ digest ≠ other ∧ store.contains other = true := by
  simp [contains, delete]

variable {store : InMemoryBlobStore} {digest : Digest}

/-- Dropping a blob leaves the others. -/
theorem get_delete_of_ne {other : Digest} (different : digest ≠ other) :
    (store.delete digest).get other = store.get other := by
  simp only [get, delete, Std.ExtTreeMap.getElem?_erase, Std.LawfulEqCmp.compare_eq_iff_eq, different, if_false]

/-- What is in the store is returned. -/
theorem get_of_contains (inside : store.contains digest = true) : ∃ bytes, store.get digest = .ok bytes := by
  rw [contains, Std.ExtTreeMap.contains_eq_isSome_getElem?, Option.isSome_iff_exists] at inside
  obtain ⟨bytes, found⟩ := inside
  exact ⟨bytes, by rw [get, found]⟩

/-- A store with a blob is not empty. -/
theorem len_pos (inside : store.contains digest = true) : 0 < store.len := by
  apply Nat.pos_of_ne_zero
  intro empty
  have none : store.inner = ∅ := Std.ExtTreeMap.eq_empty_iff_size_eq_zero.mpr empty
  rw [contains, none] at inside
  simp at inside

/-- A blob that was there is one less. -/
theorem len_delete (store : InMemoryBlobStore) (digest : Digest) :
    ((store.delete digest).len : Int) = store.len - if store.contains digest then 1 else 0 := by
  have size : (store.delete digest).len =
      if digest ∈ store.inner then store.len - 1 else store.len := Std.ExtTreeMap.size_erase
  by_cases inside : store.contains digest = true
  · rw [if_pos (Std.ExtTreeMap.contains_iff_mem.mp inside)] at size
    rw [if_pos inside, size]
    exact Int.ofNat_sub (len_pos inside)
  · rw [if_neg (mt Std.ExtTreeMap.contains_iff_mem.mpr inside)] at size
    rw [if_neg inside, size, Int.sub_zero]

end InMemoryBlobStore

end FerroProtocols.BlobStore
