import FerroProtocols.Cargo.Registry
import Mathlib.Data.List.Nodup

/-!
What holds of the crates whenever nobody is changing them, and how each change keeps it or is taken back.
-/

namespace FerroProtocols.Cargo

open BlobStore Std SparseMap

namespace IndexEntry

/-- All of an entry but the flag that a yank sets. -/
def core (entry : IndexEntry) : IndexEntry := { entry with yanked := false }

end IndexEntry

namespace CrateMap

/-- Some version has the tarball with this digest. -/
def Referenced (crates : CrateMap) (digest : Digest) : Prop :=
  ∃ (key : String) (record : CrateRecord) (vers : String),
    crates[key]? = some record ∧ record.tarballs[vers]? = some digest

/-- The search through all crates finds a version with the tarball. -/
theorem digestReferencedIn_iff {crates : CrateMap} {digest : Digest} :
    crates.digestReferencedIn digest = true ↔ crates.Referenced digest := by
  simp only [digestReferencedIn, List.any_eq_true, Prod.exists, ExtTreeMap.mem_toList_iff_getElem?_eq_some,
    decide_eq_true_eq, Referenced]
  constructor
  · rintro ⟨key, record, stored, vers, other, mapped, rfl⟩
    exact ⟨key, record, vers, stored, mapped⟩
  · rintro ⟨key, record, vers, stored, mapped⟩
    exact ⟨key, record, stored, vers, digest, mapped, rfl⟩

end CrateMap

/-- What holds of the record under a key. -/
structure CrateRecord.Consistent (digits : DigitTable) (key : String) (record : CrateRecord) : Prop where
  nonempty : record.entries ≠ []
  name : ∃ name, isValidName name = true ∧ canonicalName name = key ∧
    ∀ entry ∈ record.entries, entry.name = name
  semver : ∀ entry ∈ record.entries, isValidSemver digits entry.vers = true
  distinct : (record.entries.map IndexEntry.vers).Nodup
  -- The versions with a tarball are those with an entry, and the digest is that of the entry.
  mapped : ∀ entry ∈ record.entries, ∃ digest, record.tarballs[entry.vers]? = some digest ∧
    digest.hex = entry.cksum
  listed : ∀ (vers : String) (digest : Digest), record.tarballs[vers]? = some digest →
    ∃ entry ∈ record.entries, entry.vers = vers ∧ digest.algo = .sha256 ∧ digest.hex = entry.cksum
  logins : (record.owners.map Owner.login).Nodup

/-- All records are consistent. -/
def CrateMap.Consistent (digits : DigitTable) (crates : CrateMap) : Prop :=
  ∀ (key : String) (record : CrateRecord), crates[key]? = some record → record.Consistent digits key

section Publishing

variable {server : CargoServer} {crates : CrateMap} {plan : PublishPlan}

/-- A publish that may go on finds no crate, or one of its name without its version. -/
theorem checkVacant_eq_ok (vacant : crates.checkVacant plan = .ok ()) {record : CrateRecord}
    (found : crates[plan.key]? = some record) :
    (∀ first, record.entries.head? = some first → first.name = plan.name) ∧
      ∀ entry ∈ record.entries, entry.vers ≠ plan.entry.vers := by
  simp only [CrateMap.checkVacant, found] at vacant
  split at vacant
  · cases vacant
  · rename_i agreed
    split at vacant
    · cases vacant
    · rename_i fresh
      constructor
      · intro first head
        rw [head] at agreed
        simpa using agreed
      · intro entry member same
        refine fresh (List.any_eq_true.mpr ⟨entry, member, decide_eq_true same⟩)

/-- The record of the crate after a publish. -/
def grown (crates : CrateMap) (plan : PublishPlan) : CrateRecord :=
  let record := crates[plan.key]?.getD {}
  { record with
    tarballs := record.tarballs.insert plan.entry.vers plan.digest
    entries := record.entries ++ [plan.entry] }

/-- A publish changes one record. -/
theorem addVersion_eq (crates : CrateMap) (plan : PublishPlan) :
    crates.addVersion plan = crates.insert plan.key (grown crates plan) := rfl

variable (consistent : crates.Consistent server.digits) (vacant : crates.checkVacant plan = .ok ())

include consistent vacant

private theorem consistent_grown (prepared : server.Prepared plan) :
    (grown crates plan).Consistent server.digits plan.key := by
  -- The digest under the new version is that of the new entry.
  have digest : plan.digest.algo = .sha256 ∧ plan.digest.hex = plan.entry.cksum := by
    refine ⟨?_, prepared.cksum.symm⟩
    rw [prepared.digest]
    rfl
  have semver : isValidSemver server.digits plan.entry.vers = true := by
    rw [prepared.vers]
    exact prepared.semver
  cases found : crates[plan.key]? with
  | none =>
    simp only [grown, found, Option.getD_none, List.nil_append]
    refine ⟨List.cons_ne_nil _ _, ⟨plan.name, prepared.valid, prepared.key.symm, ?_⟩, ?_,
      List.nodup_singleton _, ?_, ?_, List.nodup_nil⟩
    · intro entry member
      rw [List.mem_singleton.mp member]
      exact prepared.name
    · intro entry member
      rw [List.mem_singleton.mp member]
      exact semver
    · intro entry member
      rw [List.mem_singleton.mp member]
      exact ⟨plan.digest, ExtTreeMap.getElem?_insert_self, digest.2⟩
    · intro vers other mapped
      rw [ExtTreeMap.getElem?_insert] at mapped
      split at mapped
      · grind
      · simp at mapped
  | some record =>
    obtain ⟨agreed, fresh⟩ := checkVacant_eq_ok vacant found
    have before := consistent plan.key record found
    obtain ⟨name, valid, key, same⟩ := before.name
    -- The crate has the name of its first entry, which is that of the publish.
    have named : name = plan.name := by
      cases entries : record.entries with
      | nil => exact absurd entries before.nonempty
      | cons first rest =>
        rw [← same first (entries ▸ List.mem_cons_self)]
        exact agreed first (by rw [entries]; rfl)
    simp only [grown, found, Option.getD_some]
    refine ⟨List.append_ne_nil_of_right_ne_nil _ (List.cons_ne_nil _ _),
      ⟨name, valid, key, ?_⟩, ?_, ?_, ?_, ?_, before.logins⟩
    · intro entry member
      rcases List.mem_append.mp member with old | new
      · exact same entry old
      · rw [List.mem_singleton.mp new, named]
        exact prepared.name
    · intro entry member
      rcases List.mem_append.mp member with old | new
      · exact before.semver entry old
      · grind
    · rw [List.map_append, List.map_singleton]
      refine List.nodup_append.mpr ⟨before.distinct, List.nodup_singleton _, ?_⟩
      intro left old right new equal
      obtain ⟨entry, member, rfl⟩ := List.mem_map.mp old
      rw [List.mem_singleton.mp new] at equal
      exact fresh entry member equal
    · intro entry member
      rcases List.mem_append.mp member with old | new
      · rw [ExtTreeMap.getElem?_insert, if_neg]
        · exact before.mapped entry old
        · grind
      · grind
    · intro vers found mapped
      rw [ExtTreeMap.getElem?_insert] at mapped
      split at mapped
      · grind
      · obtain ⟨entry, member, rest⟩ := before.listed vers found mapped
        exact ⟨entry, List.mem_append_left _ member, rest⟩

/-- The crates with one version more are consistent. -/
theorem consistent_addVersion (prepared : server.Prepared plan) :
    (crates.addVersion plan).Consistent server.digits := by
  intro key record found
  rw [addVersion_eq, ExtTreeMap.getElem?_insert] at found
  split at found
  · rename_i same
    cases found
    rw [← LawfulEqCmp.eq_of_compare same]
    exact consistent_grown consistent vacant prepared
  · exact consistent key record found

/-- Taking a version out that has just been added leaves the crates exactly as they were. -/
theorem rollbackPublish_addVersion :
    (crates.addVersion plan).rollbackPublish plan.key plan.entry.vers plan.digest = crates := by
  have stored : (crates.addVersion plan)[plan.key]? = some (grown crates plan) := ExtTreeMap.getElem?_insert_self
  have mapped : (grown crates plan).tarballs[plan.entry.vers]? = some plan.digest := ExtTreeMap.getElem?_insert_self
  simp only [CrateMap.rollbackPublish, stored, mapped, if_true]
  have back := putBack_insert crates plan.key (grown crates plan)
  cases found : crates[plan.key]? with
  | none =>
    -- The crate was new, and nothing is left of it.
    have entries : (grown crates plan).entries.filter
        (fun entry => decide (entry.vers ≠ plan.entry.vers)) = [] := by
      simp [grown, found]
    have tarballs : ((grown crates plan).tarballs.erase plan.entry.vers).isEmpty = true := by
      have erased := putBack_insert (∅ : ExtTreeMap String Digest) plan.entry.vers plan.digest
      simp only [ExtTreeMap.getElem?_empty, putBack] at erased
      simp only [grown, found, Option.getD_none, erased]
      rfl
    have owners : (grown crates plan).owners.isEmpty = true := by simp [grown, found]
    rw [found] at back
    rw [entries, tarballs, owners]
    exact back
  | some record =>
    obtain ⟨_, fresh⟩ := checkVacant_eq_ok vacant found
    have before := consistent plan.key record found
    have entries : (grown crates plan).entries.filter
        (fun entry => decide (entry.vers ≠ plan.entry.vers)) = record.entries := by
      simp only [grown, found, Option.getD_some, List.filter_append]
      rw [List.filter_eq_self.mpr fun entry member => decide_eq_true (fresh entry member)]
      simp
    -- No tarball was displaced, as there was no entry with the version.
    have absent : record.tarballs[plan.entry.vers]? = none := by
      cases there : record.tarballs[plan.entry.vers]? with
      | none => rfl
      | some digest =>
        obtain ⟨entry, member, same, _⟩ := before.listed _ _ there
        exact absurd same (fresh entry member)
    have tarballs : (grown crates plan).tarballs.erase plan.entry.vers = record.tarballs := by
      have erased := putBack_insert record.tarballs plan.entry.vers plan.digest
      rw [absent] at erased
      simp only [grown, found, Option.getD_some]
      exact erased
    have filled : record.entries.isEmpty = false := by
      cases shape : record.entries with
      | nil => exact absurd shape before.nonempty
      | cons => rfl
    rw [found] at back
    have owners : (grown crates plan).owners = record.owners := by simp [grown, found]
    rw [entries, filled, tarballs, Bool.false_and, Bool.false_and, if_neg Bool.false_ne_true, owners]
    exact back

end Publishing

section Changing

variable {digits : DigitTable} {crates : CrateMap} {key : String} {record : CrateRecord}

/-- A record stays consistent when flags and owners change. -/
theorem CrateRecord.Consistent.congr {after : CrateRecord} (consistent : record.Consistent digits key)
    (entries : after.entries.map IndexEntry.core = record.entries.map IndexEntry.core)
    (tarballs : after.tarballs = record.tarballs) (logins : (after.owners.map Owner.login).Nodup) :
    after.Consistent digits key := by
  have older : ∀ entry ∈ after.entries, ∃ old ∈ record.entries,
      old.name = entry.name ∧ old.vers = entry.vers ∧ old.cksum = entry.cksum := by
    intro entry member
    have there : entry.core ∈ record.entries.map IndexEntry.core := by grind
    obtain ⟨old, inside, same⟩ := List.mem_map.mp there
    have name : old.core.name = entry.core.name := by rw [same]
    have vers : old.core.vers = entry.core.vers := by rw [same]
    have cksum : old.core.cksum = entry.core.cksum := by rw [same]
    exact ⟨old, inside, name, vers, cksum⟩
  have versions : after.entries.map IndexEntry.vers = record.entries.map IndexEntry.vers := by
    have same := congrArg (List.map IndexEntry.vers) entries
    rw [List.map_map, List.map_map] at same
    exact same
  obtain ⟨name, valid, canonical, named⟩ := consistent.name
  refine ⟨?_, ⟨name, valid, canonical, ?_⟩, ?_, versions ▸ consistent.distinct, ?_, ?_, logins⟩
  · intro empty
    rw [empty, List.map_nil] at entries
    exact consistent.nonempty (List.map_eq_nil_iff.mp entries.symm)
  · intro entry member
    obtain ⟨old, there, same, _⟩ := older entry member
    exact same.symm.trans (named old there)
  · intro entry member
    obtain ⟨old, there, _, same, _⟩ := older entry member
    rw [← same]
    exact consistent.semver old there
  · intro entry member
    obtain ⟨old, there, _, same, cksum⟩ := older entry member
    rw [tarballs, ← same, ← cksum]
    exact consistent.mapped old there
  · intro vers digest mapped
    rw [tarballs] at mapped
    obtain ⟨old, there, equal, algo, hex⟩ := consistent.listed vers digest mapped
    have there : old.core ∈ after.entries.map IndexEntry.core := by grind
    obtain ⟨entry, member, same⟩ := List.mem_map.mp there
    have sameVers : entry.core.vers = old.core.vers := by rw [same]
    have sameCksum : entry.core.cksum = old.core.cksum := by rw [same]
    exact ⟨entry, member, sameVers.trans equal, algo, hex.trans sameCksum.symm⟩

/-- A flag is all that a yank changes. -/
theorem map_core_setFlag (version : String) (yanked : Bool) (entries : List IndexEntry) :
    (CrateMap.setFlag version yanked entries).map IndexEntry.core = entries.map IndexEntry.core := by
  induction entries with
  | nil => rfl
  | cons entry rest ih =>
    rw [CrateMap.setFlag]
    split
    · rfl
    · grind

private theorem setFlag_setFlag {version : String} (yanked : Bool) {entries : List IndexEntry} {entry : IndexEntry}
    (found : entries.find? (fun entry => decide (entry.vers = version)) = some entry) :
    CrateMap.setFlag version entry.yanked (CrateMap.setFlag version yanked entries) = entries := by
  induction entries with
  | nil => cases found
  | cons first rest ih =>
    by_cases same : first.vers = version
    · -- The first entry with the version is the one that is set, both times.
      simp only [List.find?_cons, decide_eq_true same] at found
      cases found
      rw [CrateMap.setFlag, if_pos same, CrateMap.setFlag, if_pos same]
    · simp only [List.find?_cons, decide_eq_false same] at found
      rw [CrateMap.setFlag, if_neg same, CrateMap.setFlag, if_neg same, ih found]

/-- Setting the flag of a version back leaves the crates as they were. -/
theorem setYanked_setYanked {version : String} (yanked : Bool) {entry : IndexEntry}
    (stored : crates[key]? = some record)
    (found : record.entries.find? (fun entry => decide (entry.vers = version)) = some entry) :
    (crates.setYanked key version yanked).setYanked key version entry.yanked = crates := by
  apply ExtTreeMap.ext_getElem?
  intro other
  simp only [CrateMap.setYanked, ExtTreeMap.getElem?_modify]
  split
  · rename_i same
    rw [← LawfulEqCmp.eq_of_compare same, stored]
    simp [setFlag_setFlag yanked found]
  · rfl

/-- Giving a crate back its owners leaves the crates as they were. -/
theorem setOwners_setOwners (owners : List Owner) (stored : crates[key]? = some record) :
    (crates.setOwners key owners).setOwners key record.owners = crates := by
  apply ExtTreeMap.ext_getElem?
  intro other
  simp only [CrateMap.setOwners, ExtTreeMap.getElem?_modify]
  split
  · rename_i same
    rw [← LawfulEqCmp.eq_of_compare same, stored]
    simp
  · rfl

/-- The crates stay consistent when one record changes to a consistent one. -/
theorem CrateMap.Consistent.modify {change : CrateRecord → CrateRecord} (consistent : crates.Consistent digits)
    (keeps : ∀ record, crates[key]? = some record → (change record).Consistent digits key) :
    CrateMap.Consistent digits (crates.modify key change) := by
  intro other found stored
  rw [ExtTreeMap.getElem?_modify] at stored
  split at stored
  · rename_i same
    rw [← LawfulEqCmp.eq_of_compare same]
    obtain ⟨record, before, rfl⟩ := Option.map_eq_some_iff.mp stored
    exact keeps record before
  · exact consistent other found stored

end Changing

section Owners

private theorem nodup_addOwner {reached : List Owner × Nat} (distinct : (reached.1.map Owner.login).Nodup)
    (login : String) : ((CrateMap.addOwner reached login).1.map Owner.login).Nodup := by
  unfold CrateMap.addOwner
  split
  · exact distinct
  · rename_i new
    rw [List.map_append, List.map_singleton]
    refine List.nodup_append.mpr ⟨distinct, List.nodup_singleton _, ?_⟩
    intro left old right single same
    obtain ⟨owner, member, rfl⟩ := List.mem_map.mp old
    rw [List.mem_singleton.mp single] at same
    exact new (List.any_eq_true.mpr ⟨owner, member, decide_eq_true same⟩)

/-- No change of owners takes a login twice. -/
theorem nodup_changeOwners {owners : List Owner} (distinct : (owners.map Owner.login).Nodup)
    (logins : List String) (remove : Bool) :
    ((CrateMap.changeOwners owners logins remove).map Owner.login).Nodup := by
  unfold CrateMap.changeOwners
  split
  · grind
  · have added : ∀ reached : List Owner × Nat, (reached.1.map Owner.login).Nodup →
        ((logins.foldl CrateMap.addOwner reached).1.map Owner.login).Nodup := by
      induction logins with
      | nil => exact fun _ distinct => distinct
      | cons login rest ih => exact fun reached distinct => ih _ (nodup_addOwner distinct login)
    exact added _ distinct

/-- Identifiers differ, and are below the counter. -/
def Numbered (reached : List Owner × Nat) : Prop :=
  (reached.1.map Owner.id).Nodup ∧ ∀ owner ∈ reached.1, owner.id < reached.2

/-- An owner gets the number of the counter, if that has not run out of numbers. -/
theorem Numbered.addOwner {reached : List Owner × Nat} (numbered : Numbered reached) (login : String)
    (bounded : (CrateMap.addOwner reached login).2 ≤ ownerIdModulus) :
    Numbered (CrateMap.addOwner reached login) := by
  unfold CrateMap.addOwner at bounded ⊢
  split
  · exact numbered
  · rename_i new
    rw [if_neg new] at bounded
    -- The counter is still below the modulus when its number is taken.
    have id : reached.2 % ownerIdModulus = reached.2 := Nat.mod_eq_of_lt bounded
    rw [id]
    constructor
    · rw [List.map_append, List.map_singleton]
      refine List.nodup_append.mpr ⟨numbered.1, List.nodup_singleton _, ?_⟩
      intro left old right single same
      obtain ⟨owner, member, rfl⟩ := List.mem_map.mp old
      have below := numbered.2 owner member
      rw [List.mem_singleton.mp single] at same
      change owner.id = reached.2 at same
      omega
    · intro owner member
      rcases List.mem_append.mp member with old | single
      · have below := numbered.2 owner old
        change owner.id < reached.2 + 1
        omega
      · grind

private theorem le_foldl_addOwner (logins : List String) (reached : List Owner × Nat) :
    reached.2 ≤ (logins.foldl CrateMap.addOwner reached).2 := by
  induction logins generalizing reached with
  | nil => exact Nat.le_refl _
  | cons login rest ih =>
    have first : reached.2 ≤ (CrateMap.addOwner reached login).2 := by
      unfold CrateMap.addOwner
      split
      · exact Nat.le_refl _
      · exact Nat.le_succ _
    exact Nat.le_trans first (ih _)

/-- While the counter does not run out of numbers, no identifier is given twice. -/
theorem nodup_id_changeOwners {owners : List Owner} (distinct : (owners.map Owner.id).Nodup)
    (logins : List String) (remove : Bool)
    (bounded : remove = false → (CrateMap.addOwners owners logins).2 ≤ ownerIdModulus) :
    ((CrateMap.changeOwners owners logins remove).map Owner.id).Nodup := by
  unfold CrateMap.changeOwners
  split
  · grind
  · rename_i adds
    have numbered : ∀ reached : List Owner × Nat, Numbered reached →
        (logins.foldl CrateMap.addOwner reached).2 ≤ ownerIdModulus →
        Numbered (logins.foldl CrateMap.addOwner reached) := by
      clear bounded
      induction logins with
      | nil => exact fun _ numbered _ => numbered
      | cons login rest ih =>
        intro reached numbered within
        exact ih _ (numbered.addOwner login (Nat.le_trans (le_foldl_addOwner rest _) within)) within
    refine (numbered _ ⟨distinct, ?_⟩ (bounded (Bool.eq_false_of_not_eq_true adds))).1
    -- The counter starts after the largest identifier.
    intro owner member
    have largest : owner.id ≤ (owners.map Owner.id).foldl max 0 := by
      have upper (ids : List Nat) (start : Nat) : start ≤ ids.foldl max start ∧
          ∀ id ∈ ids, id ≤ ids.foldl max start := by
        induction ids generalizing start with
        | nil => exact ⟨Nat.le_refl _, nofun⟩
        | cons id rest ih =>
          have onward := ih (max start id)
          rw [List.foldl_cons]
          refine ⟨Nat.le_trans (Nat.le_max_left _ _) onward.1, ?_⟩
          intro other member
          rcases List.mem_cons.mp member with rfl | later
          · omega
          · exact onward.2 other later
      exact (upper _ 0).2 _ (List.mem_map_of_mem member)
    exact Nat.lt_succ_of_le largest

end Owners

end FerroProtocols.Cargo
