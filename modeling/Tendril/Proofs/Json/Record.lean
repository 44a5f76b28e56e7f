import Mathlib.Data.List.Nodup
import Mathlib.Data.Option.Basic
import Tendril.Json.Record

/-!
# Fields of records

A record is read field by field, and what is read for a field is the value that stands under its
name. The members of an object may come in any order and stand among members with other names; an
array says the same with the values alone, as far as it goes. Either way a field is the one that was
given or else is left out.
-/

namespace Tendril

namespace Json

/-- The members of an object. -/
def members : Json → List (Option String × Json)
  | .object members => members
  | _ => []

variable {names : List String} {name : String} {given whole : List (Option String × Json)}

/-! ## One name, one value -/

theorem occurrences_cons_of_ne {m : Option String × Json} (other : m.1 ≠ some name) :
    occurrences name (m :: given) = occurrences name given :=
  List.countP_cons_of_neg (by simp [other])

theorem member?_cons_of_ne {m : Option String × Json} (other : m.1 ≠ some name) :
    member? name (m :: given) = member? name given := by
  simp [member?, other]

/-- Where a name occurs no more than once, its value is whatever stands under it. -/
theorem member?_eq_some_iff (once : occurrences name given ≤ 1) {value : Json} :
    member? name given = some value ↔ (some name, value) ∈ given := by
  induction given with
  | nil => simp [member?]
  | cons m rest ih =>
      obtain ⟨key, here⟩ := m
      rw [List.mem_cons]
      by_cases named : key = some name
      · subst named
        -- The name is used up here, so that it cannot come again.
        have later : (some name, value) ∉ rest := by
          intro again
          have more : 0 < occurrences name rest := List.countP_pos_iff.mpr ⟨_, again, by simp⟩
          have total : occurrences name ((some name, here) :: rest) = occurrences name rest + 1 :=
            List.countP_cons_of_pos (by simp)
          omega
        have first : member? name ((some name, here) :: rest) = some here := by simp [member?]
        simp [first, later, eq_comm]
      · rw [occurrences_cons_of_ne named] at once
        rw [member?_cons_of_ne named, ih once]
        simp [Ne.symm named]

/-- Where all names are different, none occurs more than once. -/
theorem occurrences_le_one (distinct : (given.map Prod.fst).Nodup) (name : String) :
    occurrences name given ≤ 1 := by
  have counted : occurrences name given = (given.map Prod.fst).count (some name) := by
    rw [List.count_eq_countP, List.countP_map]
    rfl
  rw [counted]
  exact List.nodup_iff_count_le_one.mp distinct _

theorem member?_map (named : List (String × Json)) (name : String) :
    member? name (named.map fun m => (some m.1, m.2)) = List.lookup name named := by
  induction named with
  | nil => rfl
  | cons m rest ih =>
      obtain ⟨key, value⟩ := m
      by_cases here : key = name
      · subst here
        simp [member?]
      · rw [List.map_cons, member?_cons_of_ne (by simpa using here), ih, List.lookup_cons,
          beq_false_of_ne (Ne.symm here)]

/-- What is written as a record is read as its fields, whichever are asked for. -/
theorem fields?_record {named : List (String × Json)} (distinct : (named.map Prod.fst).Nodup)
    (names : List String) :
    fields? names (.record named) = some fun name => List.lookup name named := by
  have once : (names.all fun name =>
      occurrences name (named.map fun m => (some m.1, m.2)) ≤ 1) = true := by
    have keys : ((named.map fun m => (some m.1, m.2)).map Prod.fst).Nodup := by
      have injected := distinct.map (Option.some_injective String)
      rw [List.map_map] at injected ⊢
      exact injected
    simpa using fun name _ => occurrences_le_one keys name
  have texts : ((named.map fun m => (some m.1, m.2)).all fun m => m.1.isSome) = true := by simp
  rw [record, fields?, texts, once]
  simp only [member?_map]
  rfl

/-! ## Whole records and parts of them -/

/-- A record that has a value for every field, in the order in which the fields are declared. -/
structure Fills (names : List String) (whole : List (Option String × Json)) : Prop where
  keys : whole.map Prod.fst = names.map some
  distinct : names.Nodup

theorem Fills.occurrences_le_one (fills : Fills names whole) (name : String) :
    occurrences name whole ≤ 1 := by
  refine Json.occurrences_le_one ?_ name
  rw [fills.keys]
  exact fills.distinct.map (Option.some_injective _)

/-- Whether a member is for one of the fields. -/
def isKnown (names : List String) (m : Option String × Json) : Bool := m.1.any names.contains

/-- Members of an object that have the values of a record for the fields in `present` and for no
other; members that are for no field may be anything and stand anywhere. -/
structure Presents (names : List String) (whole : List (Option String × Json))
    (present : String → Bool) (given : List (Option String × Json)) : Prop where
  texts : ∀ m ∈ given, m.1.isSome = true
  known : (given.filter (isKnown names)).Perm (whole.filter fun m => m.1.any present)

/-- What is known of the fields of a record, whatever form it has: those present have the values of
the record, and the others are left out. -/
def FieldsOf (names : List String) (whole : List (Option String × Json)) (present : String → Bool)
    (field : String → Option Json) : Prop :=
  ∀ name ∈ names, field name = if present name then member? name whole else none

variable {present : String → Bool}

namespace Presents

theorem mem_iff (presents : Presents names whole present given) (known : name ∈ names)
    {value : Json} :
    (some name, value) ∈ given ↔ present name = true ∧ (some name, value) ∈ whole := by
  have filtered := presents.known.mem_iff (a := (some name, value))
  simp only [List.mem_filter, isKnown, Option.any_some, List.contains_iff_mem, known,
    and_true] at filtered
  rw [filtered, and_comm]

theorem occurrences_le_one (presents : Presents names whole present given)
    (fills : Fills names whole) (known : name ∈ names) : occurrences name given ≤ 1 := by
  have kept : occurrences name given = occurrences name (given.filter (isKnown names)) := by
    unfold occurrences
    rw [List.countP_filter]
    refine List.countP_congr fun m _ => ?_
    constructor
    · intro named
      have key : m.1 = some name := by simpa using named
      simp [key, isKnown, known]
    · intro both
      exact (Bool.and_eq_true_iff.mp both).1
  calc occurrences name given
      = occurrences name (whole.filter fun m => m.1.any present) := by
        rw [kept, occurrences, presents.known.countP_eq, occurrences]
    _ ≤ occurrences name whole := List.filter_sublist.countP_le
    _ ≤ 1 := fills.occurrences_le_one name

/-- Neither the order of the members nor any member with another name makes a difference. -/
theorem fields? (presents : Presents names whole present given) (fills : Fills names whole) :
    ∃ field, fields? names (.object given) = some field ∧ FieldsOf names whole present field := by
  refine ⟨fun name => member? name given, ?_, fun name known => ?_⟩
  · have texts : (given.all fun m => m.1.isSome) = true := by simpa using presents.texts
    have once : (names.all fun name => occurrences name given ≤ 1) = true := by
      simpa using fun name known => presents.occurrences_le_one fills known
    rw [Json.fields?, texts, once]
    rfl
  · refine Option.ext fun value => ?_
    rw [member?_eq_some_iff (presents.occurrences_le_one fills known), presents.mem_iff known]
    by_cases here : present name = true
    · rw [if_pos here, member?_eq_some_iff (fills.occurrences_le_one name)]
      exact and_iff_right here
    · simp [here]

end Presents

theorem Fills.key_of_mem (fills : Fills names whole) {m : Option String × Json}
    (member : m ∈ whole) : ∃ name ∈ names, m.1 = some name := by
  have key : m.1 ∈ names.map some := fills.keys ▸ List.mem_map_of_mem member
  obtain ⟨name, known, same⟩ := List.mem_map.mp key
  exact ⟨name, known, same.symm⟩

/-- The members for some of the fields, taken as they stand. -/
theorem Fills.presents (fills : Fills names whole) (present : String → Bool) :
    Presents names whole present (whole.filter fun m => m.1.any present) where
  texts := by
    intro m member
    obtain ⟨name, _, key⟩ := fills.key_of_mem (List.mem_of_mem_filter member)
    rw [key]
    rfl
  known := by
    have kept : ∀ m ∈ whole.filter fun m => m.1.any present, isKnown names m = true := by
      intro m member
      obtain ⟨name, known, key⟩ := fills.key_of_mem (List.mem_of_mem_filter member)
      simp [isKnown, key, known]
    rw [List.filter_eq_self.mpr kept]

theorem Fills.filter_true (fills : Fills names whole) :
    (whole.filter fun m => m.1.any fun _ => true) = whole := by
  rw [List.filter_eq_self]
  intro m member
  obtain ⟨name, _, key⟩ := fills.key_of_mem member
  rw [key]
  rfl

/-- A whole record has all of its fields. -/
theorem Fills.fields?_self (fills : Fills names whole) :
    ∃ field, fields? names (.object whole) = some field ∧
      FieldsOf names whole (fun _ => true) field := by
  have presents := fills.presents fun _ => true
  rw [fills.filter_true] at presents
  exact presents.fields? fills

/-- A field that occurs twice spoils the record. -/
theorem fields?_repeated (known : name ∈ names) (before between after : List (Option String × Json))
    (value other : Json) : fields? names
      (.object (before ++ (some name, value) :: (between ++ (some name, other) :: after))) =
      none := by
  generalize eq : before ++ (some name, value) :: (between ++ (some name, other) :: after) = given
  have twice : 1 < occurrences name given := by
    rw [← eq]
    simp only [occurrences, List.countP_append, List.countP_cons_of_pos, beq_self_eq_true]
    omega
  have spoiled : (names.all fun name => occurrences name given ≤ 1) = false := by
    rw [List.all_eq_false]
    exact ⟨name, known, by simpa using twice⟩
  rw [fields?, spoiled, Bool.and_false]
  rfl

/-- In a whole record, the field at the position of its name. -/
theorem Fills.getElem?_idxOf (fills : Fills names whole) (known : name ∈ names) :
    (whole.map Prod.snd)[names.idxOf name]? = member? name whole := by
  have inside := List.idxOf_lt_length_iff.mpr known
  have inWhole : names.idxOf name < whole.length := by
    have same := congrArg List.length fills.keys
    rw [List.length_map, List.length_map] at same
    omega
  have key : whole[names.idxOf name].1 = some name := by
    have same := congrArg (·[names.idxOf name]?) fills.keys
    simpa [List.getElem?_eq_getElem, inside, inWhole] using same
  have found : member? name whole = some whole[names.idxOf name].2 := by
    rw [member?_eq_some_iff (fills.occurrences_le_one name), ← key]
    exact List.getElem_mem inWhole
  rw [found, List.getElem?_map, List.getElem?_eq_getElem inWhole, Option.map_some]

/-- An array gives the fields that are declared first, as many as it has items. -/
theorem Fills.fields?_take (fills : Fills names whole) (count : Nat) :
    ∃ field, fields? names (.array ((whole.take count).map Prod.snd)) = some field ∧
      FieldsOf names whole (names.take count).contains field := by
  have few : ((whole.take count).map Prod.snd).length ≤ names.length := by
    have same := congrArg List.length fills.keys
    simp only [List.length_map] at same
    simp only [List.length_map, List.length_take]
    omega
  refine ⟨fun name => ((whole.take count).map Prod.snd)[names.idxOf name]?, ?_,
    fun name known => ?_⟩
  · rw [fields?, if_pos few]
  · simp only [List.contains_iff_mem, List.mem_take_iff_idxOf_lt known, List.map_take,
      List.getElem?_take, fills.getElem?_idxOf known]

/-- The fields that an array of so many items gives are those of the members declared first. -/
theorem Fills.take_eq_filter (fills : Fills names whole) (count : Nat) :
    whole.take count = whole.filter fun m => m.1.any (names.take count).contains := by
  have early : ∀ m ∈ whole.take count, m.1.any (names.take count).contains = true := by
    intro m member
    have key : m.1 ∈ (names.take count).map some := by
      rw [List.map_take, ← fills.keys, ← List.map_take]
      exact List.mem_map_of_mem member
    obtain ⟨name, known, same⟩ := List.mem_map.mp key
    simp [← same, known]
  have late : ∀ m ∈ whole.drop count, ¬ m.1.any (names.take count).contains = true := by
    intro m member
    have key : m.1 ∈ (names.drop count).map some := by
      rw [List.map_drop, ← fills.keys, ← List.map_drop]
      exact List.mem_map_of_mem member
    obtain ⟨name, known, same⟩ := List.mem_map.mp key
    have apart := List.disjoint_take_drop fills.distinct (Nat.le_refl count)
    simpa [← same] using fun before => apart before known
  conv_rhs => rw [← List.take_append_drop count whole]
  rw [List.filter_append, List.filter_eq_self.mpr early, List.filter_eq_nil_iff.mpr late,
    List.append_nil]

end Json

end Tendril
