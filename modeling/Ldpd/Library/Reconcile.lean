/-
This file is about bringing one list up to date with another. Items are known by a key.
What the new list does not have is dropped, what only the new list has is added at the
head, and what both have is updated in place; each of the three may have effects, which
are listed in the order in which they happen.
-/

import Mathlib

namespace Reconcile

/-- What is done with an item that is only in the old list, one that is only in the new list, and
one of each list with the same key. An item that is dropped may yet stay in some form. -/
structure Rules (Item Key Effect : Type) where
  key : Item → Key
  drop : Item → Option Item × List Effect
  add : Item → Item × List Effect
  update : Item → Item → Item × List Effect

variable {Item Key Effect : Type} [DecidableEq Key] (rules : Rules Item Key Effect)

/-- The first item with a key. -/
def find (key : Key) (items : List Item) : Option Item :=
  items.find? fun item => rules.key item = key

/-- Put an item in the place of the first one with its key. -/
def put (item : Item) : List Item → List Item
  | [] => []
  | other :: rest => if rules.key other = rules.key item then item :: rest else other :: put item rest

/-- Drop what the new list does not have. -/
def sweep (new : List Item) : List Item → List Item × List Effect
  | [] => ([], [])
  | item :: rest =>
    let swept := sweep new rest
    match find rules (rules.key item) new with
    | some _ => (item :: swept.1, swept.2)
    | none => ((rules.drop item).1.toList ++ swept.1, (rules.drop item).2 ++ swept.2)

/-- Add an item of the new list, or update the one that is there. -/
def take (so : List Item × List Effect) (item : Item) : List Item × List Effect :=
  match find rules (rules.key item) so.1 with
  | none => ((rules.add item).1 :: so.1, so.2 ++ (rules.add item).2)
  | some old => (put rules (rules.update old item).1 so.1, so.2 ++ (rules.update old item).2)

/-- Bring the old list up to date with the new one. -/
def merge (old new : List Item) : List Item × List Effect :=
  new.foldl (take rules) (sweep rules new old)

/-- What an item of the new list leads to, if there is one, given the item of the old list with its
key, if there is one. -/
def taken : Option Item → Option Item → Option Item
  | none, old => old
  | some item, none => some (rules.add item).1
  | some item, some old => some (rules.update old item).1

/-- What is left of an item of the old list, given the item of the new list with its key. -/
def left : Option Item → Option Item → Option Item
  | some _, old => old
  | none, old => old.bind fun item => (rules.drop item).1

/-- The items of a list have different keys. -/
def Unique (items : List Item) : Prop :=
  (items.map rules.key).Nodup

/-- The rules do not change keys. -/
structure Rules.Lawful : Prop where
  drop : ∀ {item stays}, (rules.drop item).1 = some stays → rules.key stays = rules.key item
  add : ∀ item, rules.key (rules.add item).1 = rules.key item
  update : ∀ {old item}, rules.key old = rules.key item →
    rules.key (rules.update old item).1 = rules.key item

variable {rules}

/-! ### Finding items -/

theorem key_of_find {key : Key} {items : List Item} {item : Item}
    (found : find rules key items = some item) : rules.key item = key := by
  simpa using List.find?_some found

theorem mem_of_find {key : Key} {items : List Item} {item : Item}
    (found : find rules key items = some item) : item ∈ items :=
  List.mem_of_find?_eq_some found

theorem find_cons (key : Key) (item : Item) (rest : List Item) :
    find rules key (item :: rest) =
      if rules.key item = key then some item else find rules key rest := by
  rw [find, List.find?_cons]
  by_cases same : rules.key item = key
  · simp [same]
  · simp [same, find]

theorem find_eq_none {key : Key} {items : List Item} :
    find rules key items = none ↔ key ∉ items.map rules.key := by
  simp [find]

/-- In a list of different keys an item is found by its key. -/
theorem find_of_mem {items : List Item} (unique : Unique rules items) {item : Item}
    (member : item ∈ items) : find rules (rules.key item) items = some item := by
  induction items with
  | nil => cases member
  | cons other rest inductionHypothesis =>
    obtain ⟨absent, unique⟩ := List.nodup_cons.mp unique
    rw [find_cons]
    rcases List.mem_cons.mp member with rfl | member
    · exact if_pos rfl
    · rw [if_neg, inductionHypothesis unique member]
      intro same
      exact absent (same ▸ List.mem_map_of_mem member)

/-! ### One item -/

theorem keys_put (item : Item) (items : List Item) :
    (put rules item items).map rules.key = items.map rules.key := by
  induction items with
  | nil => rfl
  | cons other rest inductionHypothesis =>
    rw [put]
    split
    · rename_i same
      simp [same]
    · simp [inductionHypothesis]

theorem find_put {item other : Item} {items : List Item} {key : Key}
    (present : find rules (rules.key item) items = some other) :
    find rules key (put rules item items) =
      if rules.key item = key then some item else find rules key items := by
  induction items with
  | nil => cases present
  | cons first rest inductionHypothesis =>
    rw [put]
    by_cases same : rules.key first = rules.key item
    · rw [if_pos same, find_cons, find_cons, same]
      split <;> rfl
    · rw [find_cons, if_neg same] at present
      rw [if_neg same, find_cons, find_cons, inductionHypothesis present]
      by_cases here : rules.key first = key
      · rw [if_pos here, if_pos here, if_neg fun this => same (here.trans this.symm)]
      · rw [if_neg here, if_neg here]

theorem put_self {item : Item} {items : List Item}
    (present : find rules (rules.key item) items = some item) : put rules item items = items := by
  induction items with
  | nil => rfl
  | cons first rest inductionHypothesis =>
    rw [find_cons] at present
    rw [put]
    split
    · rename_i same
      rw [if_pos same] at present
      cases present
      rfl
    · rename_i different
      rw [if_neg different] at present
      rw [inductionHypothesis present]

theorem find_take (lawful : rules.Lawful) (so : List Item × List Effect) (item : Item) (key : Key) :
    find rules key (take rules so item).1 =
      if rules.key item = key then taken rules (some item) (find rules key so.1)
      else find rules key so.1 := by
  rw [take]
  cases found : find rules (rules.key item) so.1 with
  | none =>
    rw [find_cons, lawful.add]
    split
    · rename_i same
      rw [← same, found, taken]
    · rfl
  | some old =>
    have kept := lawful.update (key_of_find found)
    rw [find_put (kept ▸ found), kept]
    split
    · rename_i same
      rw [← same, found, taken]
    · rfl

theorem unique_take (lawful : rules.Lawful) {so : List Item × List Effect} (item : Item)
    (unique : Unique rules so.1) : Unique rules (take rules so item).1 := by
  rw [take]
  split
  · rename_i absent
    rw [Unique, List.map_cons, lawful.add]
    exact List.nodup_cons.mpr ⟨find_eq_none.mp absent, unique⟩
  · rw [Unique, keys_put]
    exact unique

/-! ### The sweep -/

theorem keys_sweep_sublist (lawful : rules.Lawful) (old new : List Item) :
    ((sweep rules new old).1.map rules.key).Sublist (old.map rules.key) := by
  induction old with
  | nil => exact List.Sublist.slnil
  | cons item rest inductionHypothesis =>
    rw [sweep]
    split
    · exact inductionHypothesis.cons_cons _
    · cases stays : (rules.drop item).1 with
      | none => exact inductionHypothesis.cons _
      | some left =>
        simp only [Option.toList_some, List.singleton_append, List.map_cons, lawful.drop stays]
        exact inductionHypothesis.cons_cons _

theorem find_sweep (lawful : rules.Lawful) {old : List Item} (unique : Unique rules old)
    (new : List Item) (key : Key) :
    find rules key (sweep rules new old).1 =
      left rules (find rules key new) (find rules key old) := by
  induction old with
  | nil => cases find rules key new <;> rfl
  | cons item rest inductionHypothesis =>
    obtain ⟨absent, unique⟩ := List.nodup_cons.mp unique
    have swept := inductionHypothesis unique
    rw [find_cons]
    by_cases same : rules.key item = key
    · subst same
      have gone : find rules (rules.key item) rest = none := find_eq_none.mpr absent
      rw [gone] at swept
      have gone' : find rules (rules.key item) (sweep rules new rest).1 = none := by
        rw [swept]
        cases find rules (rules.key item) new <;> rfl
      rw [if_pos rfl, sweep]
      cases known : find rules (rules.key item) new with
      | some _ => exact (find_cons ..).trans (if_pos rfl)
      | none =>
        cases stays : (rules.drop item).1 with
        | none => simpa [stays, left] using gone'
        | some rest =>
          simp only [stays, left, Option.toList_some, List.singleton_append, Option.bind_some]
          rw [find_cons, if_pos (lawful.drop stays)]
    · rw [if_neg same, ← swept, sweep]
      split
      · rw [find_cons, if_neg same]
      · cases stays : (rules.drop item).1 with
        | none => rfl
        | some left =>
          simp only [Option.toList_some, List.singleton_append]
          rw [find_cons, if_neg]
          rw [lawful.drop stays]
          exact same

/-! ### The merge -/

theorem unique_merge (lawful : rules.Lawful) {old : List Item} (unique : Unique rules old)
    (new : List Item) : Unique rules (merge rules old new).1 := by
  refine List.foldlRecOn new (take rules) (motive := fun so => Unique rules so.1) ?_
    fun so unique item _ => unique_take lawful item unique
  exact unique.sublist (keys_sweep_sublist lawful old new)

theorem find_foldl_take (lawful : rules.Lawful) {new : List Item} (unique : Unique rules new)
    (so : List Item × List Effect) (key : Key) :
    find rules key (new.foldl (take rules) so).1 =
      taken rules (find rules key new) (find rules key so.1) := by
  induction new generalizing so with
  | nil => rfl
  | cons item rest inductionHypothesis =>
    obtain ⟨absent, unique⟩ := List.nodup_cons.mp unique
    rw [List.foldl_cons, inductionHypothesis unique, find_take lawful, find_cons]
    by_cases same : rules.key item = key
    · subst same
      have gone : find rules (rules.key item) rest = none := find_eq_none.mpr absent
      rw [gone, if_pos rfl, if_pos rfl]
      rfl
    · rw [if_neg same, if_neg same]

/-- What is found after the merge: the new item as it was added or as it updated the old one, or
what the sweep left of the old one. -/
theorem find_merge (lawful : rules.Lawful) {old new : List Item} (unique : Unique rules old)
    (unique' : Unique rules new) (key : Key) :
    find rules key (merge rules old new).1 =
      taken rules (find rules key new) (left rules (find rules key new) (find rules key old)) := by
  rw [merge, find_foldl_take lawful unique', find_sweep lawful unique]

/-- A merge that has nothing to change changes nothing. -/
theorem merge_same {old new : List Item}
    (known : ∀ item ∈ old, find rules (rules.key item) new = none → rules.drop item = (some item, []))
    (settled : ∀ item ∈ new, ∃ same, find rules (rules.key item) old = some same ∧
      rules.update same item = (same, [])) :
    merge rules old new = (old, []) := by
  have swept : ∀ items : List Item, (∀ item ∈ items, item ∈ old) →
      sweep rules new items = (items, []) := by
    intro items within
    induction items with
    | nil => rfl
    | cons item rest inductionHypothesis =>
      rw [sweep, inductionHypothesis fun other member => within other (List.mem_cons_of_mem _ member)]
      cases found : find rules (rules.key item) new with
      | some _ => rfl
      | none => simp [known item (within item List.mem_cons_self) found]
  rw [merge, swept old fun _ member => member]
  refine List.foldlRecOn new (take rules) (motive := fun so => so = (old, [])) rfl ?_
  intro so same item member
  subst same
  obtain ⟨same, found, update⟩ := settled item member
  rw [take, found]
  simp only [update, List.append_nil]
  rw [put_self ((key_of_find found).symm ▸ found)]

/-- Where the items of a merge come from. -/
theorem mem_merge (lawful : rules.Lawful) {old new : List Item} (unique : Unique rules old)
    (unique' : Unique rules new) {item : Item} (member : item ∈ (merge rules old new).1) :
    (∃ source ∈ new, find rules (rules.key item) old = none ∧ item = (rules.add source).1) ∨
      (∃ before ∈ old, ∃ source ∈ new, rules.key before = rules.key source ∧
        item = (rules.update before source).1) ∨
      ∃ before ∈ old, (rules.drop before).1 = some item := by
  have found := find_of_mem (unique_merge lawful unique new) member
  rw [find_merge lawful unique unique'] at found
  cases source : find rules (rules.key item) new with
  | none =>
    rw [source] at found
    obtain ⟨before, before', stays⟩ := Option.bind_eq_some_iff.mp found
    exact .inr (.inr ⟨before, mem_of_find before', stays⟩)
  | some known =>
    rw [source, left] at found
    cases before : find rules (rules.key item) old with
    | none =>
      rw [before] at found
      exact .inl ⟨known, mem_of_find source, rfl, (Option.some_inj.mp found).symm⟩
    | some known' =>
      rw [before] at found
      exact .inr (.inl ⟨known', mem_of_find before, known, mem_of_find source,
        (key_of_find before).trans (key_of_find source).symm, (Option.some_inj.mp found).symm⟩)

/-! ### Contents -/

section Contents

variable {Content : Type} (content : Item → Option Content)

/-- What a list says; an item need not say anything. -/
def contents (items : List Item) : Set Content :=
  { said | ∃ item ∈ items, content item = some said }

/-- The rules take over what the new list says. -/
structure Faithful (rules : Rules Item Key Effect) (old new : List Item) : Prop where
  drop : ∀ item ∈ old, ∀ stays, (rules.drop item).1 = some stays → content stays = none
  add : ∀ item ∈ new, content (rules.add item).1 = content item
  update : ∀ before ∈ old, ∀ item ∈ new, rules.key before = rules.key item →
    content (rules.update before item).1 = content item

/-- The rules do nothing where there is nothing to do. -/
structure Idle (rules : Rules Item Key Effect) (old new : List Item) : Prop where
  known : ∀ item ∈ new, (content item).isSome
  hidden : ∀ item ∈ old, content item = none → rules.drop item = (some item, [])
  key : ∀ before ∈ old, ∀ item ∈ new, ∀ said, content before = some said → content item = some said →
    rules.key before = rules.key item
  update : ∀ before ∈ old, ∀ item ∈ new, ∀ said, content before = some said →
    content item = some said → rules.update before item = (before, [])

variable {content} {old new : List Item}

theorem contents_cons (item : Item) (rest : List Item) :
    contents content (item :: rest) =
      { said | content item = some said } ∪ contents content rest := by
  ext said
  simp [contents]

theorem contents_put {item before : Item} {items : List Item}
    (present : find rules (rules.key item) items = some before)
    (same : content item = content before) :
    contents content (put rules item items) = contents content items := by
  induction items with
  | nil => rfl
  | cons first rest inductionHypothesis =>
    rw [find_cons] at present
    rw [put, contents_cons]
    split
    · rename_i here
      rw [if_pos here] at present
      cases present
      rw [contents_cons, same]
    · rename_i elsewhere
      rw [if_neg elsewhere] at present
      rw [contents_cons, inductionHypothesis present]

theorem contents_eraseP {key : Key} {before : Item} {items : List Item}
    (present : find rules key items = some before) (hidden : content before = none) :
    contents content (items.eraseP fun other => rules.key other = key) = contents content items := by
  induction items with
  | nil => rfl
  | cons first rest inductionHypothesis =>
    rw [find_cons] at present
    rw [contents_cons, List.eraseP_cons]
    by_cases here : rules.key first = key
    · rw [if_pos here] at present
      cases present
      simp [here, hidden]
    · rw [if_neg here] at present
      simp only [here, decide_false, cond_false]
      rw [contents_cons, inductionHypothesis present]

/-- After a merge the list says what the new list says. -/
theorem contents_merge (lawful : rules.Lawful) (unique : Unique rules old)
    (unique' : Unique rules new) (faithful : Faithful content rules old new) :
    contents content (merge rules old new).1 = contents content new := by
  ext said
  constructor
  · rintro ⟨item, member, told⟩
    rcases mem_merge lawful unique unique' member with
      ⟨source, source', -, rfl⟩ | ⟨before, before', source, source', same, rfl⟩ |
      ⟨before, before', stays⟩
    · exact ⟨source, source', (faithful.add source source') ▸ told⟩
    · exact ⟨source, source', (faithful.update before before' source source' same) ▸ told⟩
    · rw [faithful.drop before before' item stays] at told
      cases told
  · rintro ⟨source, member, told⟩
    have found := find_merge lawful unique unique' (rules.key source)
    rw [find_of_mem unique' member, left] at found
    cases before : find rules (rules.key source) old with
    | none =>
      rw [before] at found
      exact ⟨_, mem_of_find found, (faithful.add source member).trans told⟩
    | some known =>
      rw [before] at found
      exact ⟨_, mem_of_find found,
        (faithful.update known (mem_of_find before) source member (key_of_find before)).trans told⟩

/-- A merge with a list that says the same changes nothing. -/
theorem merge_of_contents (idle : Idle content rules old new) (unique : Unique rules old)
    (same : contents content old = contents content new) : merge rules old new = (old, []) := by
  refine merge_same (fun item member unknown => ?_) fun item member => ?_
  · refine idle.hidden item member (Option.eq_none_iff_forall_ne_some.mpr fun said told => ?_)
    obtain ⟨source, source', told'⟩ : said ∈ contents content new := same ▸ ⟨item, member, told⟩
    refine find_eq_none.mp unknown ?_
    rw [idle.key item member source source' said told told']
    exact List.mem_map_of_mem source'
  · obtain ⟨said, told⟩ := Option.isSome_iff_exists.mp (idle.known item member)
    obtain ⟨before, before', told'⟩ : said ∈ contents content old := same ▸ ⟨item, member, told⟩
    refine ⟨before, ?_, idle.update before before' item member said told' told⟩
    rw [← idle.key before before' item member said told' told]
    exact find_of_mem unique before'

end Contents

/-! ### Accounts -/

section Account

variable {Stock : Type} [AddCommMonoid Stock] (act : Stock → Effect → Option Stock)
  (worth : Item → Stock)

/-- The worth of a list. -/
def total (items : List Item) : Stock :=
  (items.map worth).sum

variable (rules) in
/-- The effects of each rule are possible, and account for the difference between what is there
before and after, whatever else there is. -/
structure Rules.Balanced : Prop where
  drop : ∀ item other, (rules.drop item).2.foldlM act (worth item + other) =
    some (total worth (rules.drop item).1.toList + other)
  add : ∀ item other, (rules.add item).2.foldlM act other = some (worth (rules.add item).1 + other)
  update : ∀ before item other, (rules.update before item).2.foldlM act (worth before + other) =
    some (worth (rules.update before item).1 + other)

variable {act worth}

theorem total_cons (item : Item) (rest : List Item) :
    total worth (item :: rest) = worth item + total worth rest := by
  simp [total]

theorem total_append (first second : List Item) :
    total worth (first ++ second) = total worth first + total worth second := by
  simp [total]

variable (worth) in
/-- The worth of an item apart from the rest of the list. -/
theorem total_put {item before : Item} {items : List Item}
    (present : find rules (rules.key item) items = some before) :
    ∃ other, total worth items = worth before + other ∧
      total worth (put rules item items) = worth item + other := by
  induction items with
  | nil => cases present
  | cons first rest inductionHypothesis =>
    rw [find_cons] at present
    rw [put]
    split
    · rename_i same
      rw [if_pos same] at present
      cases present
      exact ⟨total worth rest, total_cons .., total_cons ..⟩
    · rename_i different
      rw [if_neg different] at present
      obtain ⟨other, earlier, later⟩ := inductionHypothesis present
      refine ⟨worth first + other, ?_, ?_⟩
      · rw [total_cons, earlier, add_left_comm]
      · rw [total_cons, later, add_left_comm]

theorem foldlM_sweep (balanced : rules.Balanced act worth) (new old : List Item) (other : Stock) :
    (sweep rules new old).2.foldlM act (total worth old + other) =
      some (total worth (sweep rules new old).1 + other) := by
  induction old generalizing other with
  | nil => rfl
  | cons item rest inductionHypothesis =>
    rw [sweep, total_cons]
    split
    · rw [total_cons, add_assoc, add_left_comm, inductionHypothesis, add_left_comm, add_assoc]
    · rw [List.foldlM_append, add_assoc, balanced.drop, add_left_comm]
      simp only [bind, Option.bind_some]
      rw [inductionHypothesis, total_append, add_left_comm, add_assoc]

theorem foldlM_take (lawful : rules.Lawful) (balanced : rules.Balanced act worth) {start : Stock}
    {so : List Item × List Effect} (item : Item) (other : Stock)
    (accounted : so.2.foldlM act start = some (total worth so.1 + other)) :
    (take rules so item).2.foldlM act start = some (total worth (take rules so item).1 + other) := by
  rw [take]
  cases found : find rules (rules.key item) so.1 with
  | none =>
    simp only [List.foldlM_append, accounted, bind, Option.bind_some]
    rw [balanced.add, total_cons, add_assoc]
  | some before =>
    obtain ⟨others, earlier, later⟩ := total_put worth
      ((lawful.update (key_of_find found)).symm ▸ found)
    simp only [List.foldlM_append, accounted, bind, Option.bind_some]
    rw [earlier, add_assoc, balanced.update, later, add_assoc]

/-- The effects of a merge account for the difference between the old list and the result. -/
theorem foldlM_merge (lawful : rules.Lawful) (balanced : rules.Balanced act worth)
    (old new : List Item) (other : Stock) :
    (merge rules old new).2.foldlM act (total worth old + other) =
      some (total worth (merge rules old new).1 + other) := by
  refine List.foldlRecOn new (take rules) (motive := fun so =>
    so.2.foldlM act (total worth old + other) = some (total worth so.1 + other)) ?_ ?_
  · exact foldlM_sweep balanced new old other
  · intro so accounted item _
    exact foldlM_take lawful balanced item other accounted

end Account

end Reconcile
