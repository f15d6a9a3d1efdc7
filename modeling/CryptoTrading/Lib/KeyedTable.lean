import CryptoTrading.Lib.UnorderedMap

/-! # Tables filled and merged entry by entry

A table is filled by a loop over records, some of which are dropped; the entries
of one table are merged into another one, each into what the other table has
under the same key.  With distinct keys neither depends on the order. -/
set_option autoImplicit false

namespace UnorderedMap

variable {κ α β ι : Type} [DecidableEq κ]

/-! ## Filling -/

/-- Files what `select` makes of a record over what was there. -/
def fileRecord (select : ι → Option (κ × α)) (table : UnorderedMap κ α) (record : ι) :
    UnorderedMap κ α :=
  match select record with
  | none => table
  | some entry => Finmap.insert entry.1 entry.2 table

def collect (select : ι → Option (κ × α)) (records : List ι) : UnorderedMap κ α :=
  records.foldl (fileRecord select) ∅

section Collect
variable {select : ι → Option (κ × α)} {keyOf : ι → κ} {key : κ} {records : List ι}

theorem lookup_fileRecord_of_ne (table : UnorderedMap κ α) {record : ι}
    (other : ∀ entry, select record = some entry → entry.1 ≠ key) :
    Finmap.lookup key (fileRecord select table record) = Finmap.lookup key table := by
  rw [fileRecord]
  cases selected : select record with
  | none => rfl
  | some entry => rw [lookup_insert_ite, if_neg (Ne.symm (other entry selected))]

theorem lookup_foldl_fileRecord_of_ne (table : UnorderedMap κ α)
    (others : ∀ record ∈ records, ∀ entry, select record = some entry → entry.1 ≠ key) :
    Finmap.lookup key (records.foldl (fileRecord select) table) = Finmap.lookup key table := by
  induction records generalizing table with
  | nil => rfl
  | cons record rest ih =>
      rw [List.foldl_cons,
        ih _ fun later member => others later (List.mem_cons_of_mem _ member),
        lookup_fileRecord_of_ne table (others record List.mem_cons_self)]

theorem lookup_collect_eq_none
    (others : ∀ record ∈ records, ∀ entry, select record = some entry → entry.1 ≠ key) :
    Finmap.lookup key (collect select records) = none := by
  rw [collect, lookup_foldl_fileRecord_of_ne ∅ others]
  rfl

theorem collect_append_singleton (front : List ι) (record : ι) :
    collect select (front ++ [record]) = fileRecord select (collect select front) record := by
  rw [collect, List.foldl_append]
  rfl

theorem exists_of_lookup_collect {value : α}
    (found : Finmap.lookup key (collect select records) = some value) :
    ∃ record ∈ records, select record = some (key, value) := by
  induction records using List.reverseRecOn with
  | nil => exact absurd found (by simp [collect])
  | append_singleton front record ih =>
      rw [collect_append_singleton, fileRecord] at found
      cases selected : select record with
      | none =>
          rw [selected] at found
          obtain ⟨earlier, member, filed⟩ := ih found
          exact ⟨earlier, List.mem_append_left _ member, filed⟩
      | some entry =>
          rw [selected, lookup_insert_ite] at found
          split at found
          · rename_i same
            cases found
            exact ⟨record, by simp, by rw [selected, same]⟩
          · obtain ⟨earlier, member, filed⟩ := ih found
            exact ⟨earlier, List.mem_append_left _ member, filed⟩

theorem lookup_collect_isSome {record : ι} (member : record ∈ records) {value : α}
    (filed : select record = some (key, value)) :
    ∃ other, Finmap.lookup key (collect select records) = some other := by
  induction records using List.reverseRecOn with
  | nil => cases member
  | append_singleton front last ih =>
      rw [collect_append_singleton, fileRecord]
      cases selected : select last with
      | none =>
          rcases List.mem_append.mp member with earlier | isLast
          · exact ih earlier
          · rw [List.mem_singleton.mp isLast, selected] at filed
            cases filed
      | some entry =>
          dsimp only
          rw [lookup_insert_ite]
          split
          · exact ⟨_, rfl⟩
          · rename_i different
            rcases List.mem_append.mp member with earlier | isLast
            · exact ih earlier
            · rw [List.mem_singleton.mp isLast, selected] at filed
              cases filed
              exact absurd rfl different

theorem lookup_collect_of_mem
    (keyed : ∀ record entry, select record = some entry → entry.1 = keyOf record)
    (distinct : (records.map keyOf).Nodup) {record : ι} (member : record ∈ records) :
    Finmap.lookup (keyOf record) (collect select records) = (select record).map Prod.snd := by
  suffices general : ∀ table : UnorderedMap κ α, Finmap.lookup (keyOf record) table = none →
      Finmap.lookup (keyOf record) (records.foldl (fileRecord select) table) =
        (select record).map Prod.snd from general ∅ rfl
  induction records with
  | nil => cases member
  | cons first rest ih =>
      intro table empty
      rw [List.map_cons, List.nodup_cons] at distinct
      have different : ∀ later ∈ rest, keyOf first ≠ keyOf later := by
        intro later inside same
        exact distinct.1 (same ▸ List.mem_map_of_mem inside)
      rw [List.foldl_cons]
      rcases List.mem_cons.mp member with rfl | later
      · have others : ∀ other ∈ rest, ∀ entry, select other = some entry →
            entry.1 ≠ keyOf record := by
          intro other inside entry selected
          rw [keyed other entry selected]
          exact Ne.symm (different other inside)
        rw [lookup_foldl_fileRecord_of_ne _ others, fileRecord]
        cases selected : select record with
        | none => exact empty
        | some entry =>
            rw [lookup_insert_ite, if_pos (keyed record entry selected).symm]
            rfl
      · have other : ∀ entry, select first = some entry → entry.1 ≠ keyOf record := by
          intro entry selected
          rw [keyed first entry selected]
          exact different record later
        exact ih distinct.2 later _ ((lookup_fileRecord_of_ne table other).trans empty)

omit [DecidableEq κ] in
theorem find?_of_mem {wanted : ι → Bool} (distinct : (records.map keyOf).Nodup) {record : ι}
    (member : record ∈ records) (holds : wanted record = true)
    (keyed : ∀ other, wanted other = true → keyOf other = keyOf record) :
    records.find? wanted = some record := by
  have someFound : (records.find? wanted).isSome = true :=
    List.find?_isSome.mpr ⟨record, member, holds⟩
  obtain ⟨other, hit⟩ := Option.isSome_iff_exists.mp someFound
  rw [hit, List.inj_on_of_nodup_map distinct (List.mem_of_find?_eq_some hit) member
    (keyed other (List.find?_some hit))]

end Collect

/-! ## The entries of a table -/

/-- The entries, in the order in which the table happens to be walked. -/
def entriesIn (iteration : IterationOrder κ) (table : UnorderedMap κ α) : List (κ × α) :=
  (iteration.enumerate table.keys).filterMap fun key =>
    (Finmap.lookup key table).map fun value => (key, value)

theorem mem_entriesIn (iteration : IterationOrder κ) (table : UnorderedMap κ α) (key : κ)
    (value : α) : (key, value) ∈ entriesIn iteration table ↔
      Finmap.lookup key table = some value := by
  rw [entriesIn, List.mem_filterMap]
  constructor
  · rintro ⟨other, -, found⟩
    obtain ⟨held, known, same⟩ := Option.map_eq_some_iff.mp found
    cases same
    exact known
  · intro known
    refine ⟨key, ?_, by rw [known]; rfl⟩
    rw [iteration.mem_iff, Finmap.mem_keys]
    exact Finmap.mem_of_lookup_eq_some known

theorem nodup_entriesIn (iteration : IterationOrder κ) (table : UnorderedMap κ α) :
    ((entriesIn iteration table).map Prod.fst).Nodup := by
  have sublist : ∀ keys : List κ, ((keys.filterMap fun key =>
      (Finmap.lookup key table).map fun value => (key, value)).map Prod.fst).Sublist keys := by
    intro keys
    induction keys with
    | nil => exact List.Sublist.refl []
    | cons key rest ih =>
        rw [List.filterMap_cons]
        cases Finmap.lookup key table with
        | none => exact ih.cons key
        | some value => exact ih.cons_cons key
  exact (sublist _).nodup (iteration.nodup _)

/-! ## Merging -/

/-- The loop that merges every entry into what the table has under its key. -/
def mergeAll (merge : κ → Option β → α → β) (table : UnorderedMap κ β)
    (entries : List (κ × α)) : UnorderedMap κ β :=
  entries.foldl (fun table entry =>
    Finmap.insert entry.1 (merge entry.1 (Finmap.lookup entry.1 table) entry.2) table) table

section Merge
variable (merge : κ → Option β → α → β) {key : κ} {entries : List (κ × α)}

theorem lookup_mergeAll_of_notMem (table : UnorderedMap κ β)
    (absent : key ∉ entries.map Prod.fst) :
    Finmap.lookup key (mergeAll merge table entries) = Finmap.lookup key table := by
  induction entries generalizing table with
  | nil => rfl
  | cons entry rest ih =>
      rw [List.map_cons, List.mem_cons, not_or] at absent
      rw [mergeAll, List.foldl_cons]
      refine (ih _ absent.2).trans ?_
      rw [lookup_insert_ite, if_neg absent.1]

/-- Every key of the entries is visited once. -/
theorem lookup_mergeAll_of_mem (table : UnorderedMap κ β)
    (distinct : (entries.map Prod.fst).Nodup) {value : α} (member : (key, value) ∈ entries) :
    Finmap.lookup key (mergeAll merge table entries) =
      some (merge key (Finmap.lookup key table) value) := by
  induction entries generalizing table with
  | nil => cases member
  | cons entry rest ih =>
      rw [List.map_cons, List.nodup_cons] at distinct
      rw [mergeAll, List.foldl_cons]
      rcases List.mem_cons.mp member with rfl | later
      · refine (lookup_mergeAll_of_notMem merge _ distinct.1).trans ?_
        rw [lookup_insert_ite, if_pos rfl]
      · refine (ih _ distinct.2 later).trans ?_
        have different : key ≠ entry.1 := by
          intro same
          exact distinct.1 (same ▸ List.mem_map_of_mem later)
        rw [lookup_insert_ite, if_neg different]

theorem lookup_mergeAll_entriesIn (iteration : IterationOrder κ) (table : UnorderedMap κ β)
    (source : UnorderedMap κ α) (key : κ) :
    Finmap.lookup key (mergeAll merge table (entriesIn iteration source)) =
      match Finmap.lookup key source with
      | none => Finmap.lookup key table
      | some value => some (merge key (Finmap.lookup key table) value) := by
  cases found : Finmap.lookup key source with
  | none =>
      apply lookup_mergeAll_of_notMem
      intro member
      obtain ⟨entry, inside, rfl⟩ := List.mem_map.mp member
      rw [(mem_entriesIn iteration source entry.1 entry.2).mp inside] at found
      cases found
  | some value =>
      exact lookup_mergeAll_of_mem merge table (nodup_entriesIn iteration source)
        ((mem_entriesIn iteration source key value).mpr found)

/-- A merge that leaves its own result alone can be repeated, in whatever order
the source is walked. -/
theorem mergeAll_twice
    (settled : ∀ key held value, merge key (some (merge key held value)) value =
      merge key held value) (first second : IterationOrder κ) (table : UnorderedMap κ β)
    (source : UnorderedMap κ α) :
    mergeAll merge (mergeAll merge table (entriesIn first source)) (entriesIn second source) =
      mergeAll merge table (entriesIn first source) := by
  apply Finmap.ext_lookup
  intro key
  rw [lookup_mergeAll_entriesIn, lookup_mergeAll_entriesIn]
  cases Finmap.lookup key source with
  | none => rfl
  | some value => exact congrArg some (settled key _ value)

end Merge

end UnorderedMap
