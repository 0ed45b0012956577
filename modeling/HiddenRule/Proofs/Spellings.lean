import HiddenRule.Json.Stored
import HiddenRule.Proofs.JsonText
import Mathlib.Data.List.Nodup
import Mathlib.Data.Option.Basic

/-
  This file defines the ways in which a stored value may be
  spelled.

  Beside the form that is written for a value, a reader of
  stored values accepts others: a name may stand as a variant
  without content, and a record as an array of its fields, or
  with further fields and in another order.  What a reader
  does with a value in any of these spellings is proved here
  for the three shapes of stored values.

  Main declarations:
    * `Json.nesting`
    * `Json.SpelledAs`
    * `Json.SpelledAs.variant?_of_name`
    * `Json.SpelledAs.exists_variant`
    * `Json.SpelledAs.exists_fields?`
    * `Json.Plain.spelledAs_self`
-/

------------------------------------------------------------
-- Nesting
------------------------------------------------------------

namespace HiddenRule

namespace Json

mutual

/- How many arrays and objects stand one in another. -/
def nesting : Json → Nat
| .array items => nestingItems items + 1
| .object members => nestingMembers members + 1
| _ => 0

/- The nesting of the deepest item. -/
def nestingItems : List Json → Nat
| [] => 0
| item :: rest => max (nesting item) (nestingItems rest)

/- The nesting of the deepest member. -/
def nestingMembers : List (Option String × Json) → Nat
| [] => 0
| (_, value) :: rest =>
    max (nesting value) (nestingMembers rest)

end

/- The items are as deep as the deepest of them. -/
theorem nestingItems_le_iff
    {items : List Json}
    {depth : Nat} :
    nestingItems items ≤ depth ↔
      ∀ item ∈ items, item.nesting ≤ depth := by
  induction items with
  | nil => simp [nestingItems]
  | cons item items ih =>
      rw [nestingItems, Nat.max_le, ih, List.forall_mem_cons]

/- The members are as deep as the deepest of them. -/
theorem nestingMembers_le_iff
    {members : List (Option String × Json)}
    {depth : Nat} :
    nestingMembers members ≤ depth ↔
      ∀ member ∈ members, member.2.nesting ≤ depth := by
  induction members with
  | nil => simp [nestingMembers]
  | cons member members ih =>
      rw [nestingMembers, Nat.max_le, ih,
        List.forall_mem_cons]

/- The first level is taken from a depth that is not 0. -/
theorem level_le_iff
    {levels depth : Nat} :
    levels + 1 ≤ depth ↔
      ∃ inner, depth = inner + 1 ∧ levels ≤ inner := by
  cases depth <;> simp

/- An array needs one level more than its items. -/
theorem nesting_array_le_iff
    {items : List Json}
    {depth : Nat} :
    (Json.array items).nesting ≤ depth ↔
      ∃ inner,
        depth = inner + 1 ∧
          ∀ item ∈ items, item.nesting ≤ inner := by
  rw [nesting, level_le_iff]
  simp only [nestingItems_le_iff]

/- A record needs one level more than its fields. -/
theorem nesting_ofMembers_le_iff
    {members : List (String × Json)}
    {depth : Nat} :
    (ofMembers members).nesting ≤ depth ↔
      ∃ inner,
        depth = inner + 1 ∧
          ∀ member ∈ members, member.2.nesting ≤ inner := by
  rw [ofMembers, nesting, level_le_iff]
  simp only [nestingMembers_le_iff, List.forall_mem_map]

/- A variant is one level deeper than its content. -/
theorem nesting_ofVariant
    (name : String)
    (content : Json) :
    (ofVariant name content).nesting =
      content.nesting + 1 :=
  congrArg Nat.succ (Nat.max_eq_left (Nat.zero_le _))

/- A variant needs one level more than its content. -/
theorem nesting_ofVariant_le_iff
    {name : String}
    {content : Json}
    {depth : Nat} :
    (ofVariant name content).nesting ≤ depth ↔
      ∃ inner,
        depth = inner + 1 ∧ content.nesting ≤ inner := by
  rw [nesting_ofVariant, level_le_iff]

end Json

end HiddenRule

------------------------------------------------------------
-- Spellings
------------------------------------------------------------

namespace HiddenRule

namespace Json

/-
  A value is spelled as another that says the same.  An
  object with one member is a variant; one with more of them,
  or with none, is a record.
-/
inductive SpelledAs : Json → Json → Prop
| null : SpelledAs .null .null
| bool (b : Bool) : SpelledAs (.bool b) (.bool b)
| number (token : List Char) :
    SpelledAs (.number token) (.number token)
| text (text : String) :
    SpelledAs (.ofString text) (.ofString text)
| name (name : String) :
    SpelledAs (.ofString name) (.ofVariant name .null)
| array {items spelled : List Json} :
    spelled.length = items.length →
    (∀ (i : Nat) (item other : Json),
      items[i]? = some item →
        spelled[i]? = some other →
          SpelledAs item other) →
    SpelledAs (.array items) (.array spelled)
| variant {name : String} {content spelled : Json} :
    SpelledAs content spelled →
    SpelledAs (.ofVariant name content)
      (.ofVariant name spelled)
| record {members spelled : List (String × Json)} :
    members.length ≠ 1 →
    (∀ member ∈ members,
      (spelled.map Prod.fst).count member.1 = 1) →
    (∀ (member : String × Json) (value : Json),
      member ∈ members →
        (member.1, value) ∈ spelled →
          SpelledAs member.2 value) →
    SpelledAs (.ofMembers members) (.ofMembers spelled)
| row {members : List (String × Json)} {items : List Json} :
    members.length ≠ 1 →
    items.length = members.length →
    (∀ (i : Nat) (member : String × Json) (item : Json),
      members[i]? = some member →
        items[i]? = some item →
          SpelledAs member.2 item) →
    SpelledAs (.ofMembers members) (.array items)

/- The members of an object are told from it. -/
theorem ofMembers_inj
    {left right : List (String × Json)} :
    ofMembers left = ofMembers right ↔ left = right := by
  constructor
  · intro hSame
    have hInjective :
        Function.Injective fun (member : String × Json) =>
          (some member.1, member.2) := by
      rintro ⟨_, _⟩ ⟨_, _⟩ ⟨⟩
      rfl
    exact List.map_injective_iff.mpr hInjective
      (Json.object.inj hSame)
  · rintro rfl
    rfl

namespace SpelledAs

variable {json : Json}

/- A number has one spelling. -/
theorem eq_ofNat
    {n : Nat}
    (hSpelled : (ofNat n).SpelledAs json) :
    json = ofNat n := by
  unfold ofNat at hSpelled
  cases hSpelled
  rfl

/- A truth value has one spelling. -/
theorem eq_bool
    {b : Bool}
    (hSpelled : (Json.bool b).SpelledAs json) :
    json = .bool b := by
  cases hSpelled
  rfl

/- A name is read as a variant without content. -/
theorem variant?_of_name
    {name : String}
    {depth : Nat}
    (hSpelled : (ofString name).SpelledAs json)
    (hDepth : json.nesting ≤ depth) :
    json.variant? depth = some (name, .null) := by
  unfold ofString at hSpelled
  cases hSpelled with
  | text => cases depth <;> rfl
  | name =>
      rcases nesting_ofVariant_le_iff.mp hDepth with
        ⟨inner, rfl, -⟩
      rfl

/- An array is spelled item by item. -/
theorem exists_array
    {items : List Json}
    (hSpelled : (Json.array items).SpelledAs json) :
    ∃ spelled : List Json,
      json = .array spelled ∧
        spelled.length = items.length ∧
        ∀ (i : Nat) (item other : Json),
          items[i]? = some item →
            spelled[i]? = some other →
              item.SpelledAs other := by
  cases hSpelled with
  | array hLength hItems =>
      exact ⟨_, rfl, hLength, hItems⟩

/- A variant is spelled with its name and its content. -/
theorem exists_variant
    {name : String}
    {content : Json}
    {depth : Nat}
    (hSpelled : (ofVariant name content).SpelledAs json)
    (hDepth : json.nesting ≤ depth) :
    ∃ inner spelled,
      depth = inner + 1 ∧
        json = ofVariant name spelled ∧
        content.SpelledAs spelled ∧
        spelled.nesting ≤ inner := by
  generalize hForm : ofVariant name content = form at hSpelled
  cases hSpelled with
  | variant hContent =>
      obtain ⟨⟨⟩⟩ := ofMembers_inj.mp hForm
      rcases nesting_ofVariant_le_iff.mp hDepth with
        ⟨inner, rfl, hInner⟩
      exact ⟨inner, _, rfl, rfl, hContent, hInner⟩
  | record hLength =>
      rw [← ofMembers_inj.mp hForm] at hLength
      exact absurd rfl hLength
  | row hLength =>
      rw [← ofMembers_inj.mp hForm] at hLength
      exact absurd rfl hLength
  | _ => cases hForm

end SpelledAs

end Json

end HiddenRule

------------------------------------------------------------
-- Spelled Records
------------------------------------------------------------

namespace HiddenRule

/-
  A field is found that spells a value, at a depth at which
  it can be read.
-/
def Fields.Spell
    (fields : Fields)
    (depth : Nat)
    (name : String)
    (form : Json) : Prop :=
  ∃ value,
    fields name = some value ∧
      form.SpelledAs value ∧
      value.nesting ≤ depth

namespace Json

/- A name that is there is looked up. -/
theorem exists_lookup
    {members : List (String × Json)}
    {name : String}
    (hMem : name ∈ members.map Prod.fst) :
    ∃ value,
      members.lookup name = some value ∧
        (name, value) ∈ members := by
  induction members with
  | nil => cases hMem
  | cons member members ih =>
      by_cases hName : name = member.1
      · refine ⟨member.2, ?_, ?_⟩
        · rw [hName]
          exact List.lookup_cons_self
        · rw [hName]
          exact List.mem_cons_self
      · have hLater :=
          (List.mem_cons.mp hMem).resolve_left hName
        rcases ih hLater with ⟨value, hLookup, hValue⟩
        refine ⟨value, ?_, List.mem_cons_of_mem _ hValue⟩
        rw [List.lookup_cons, beq_false_of_ne hName]
        exact hLookup

/- Members with names are all named. -/
theorem named?_map
    (members : List (String × Json)) :
    named? (members.map fun (name, value) =>
        (some name, value)) =
      some members := by
  induction members with
  | nil => rfl
  | cons member members ih =>
      rw [List.map_cons, named?, ih]
      rfl

/- A record in which no field stands twice is read. -/
theorem fields?_ofMembers
    {members : List (String × Json)}
    {names : List String}
    (hOnce :
      ∀ name ∈ names,
        (members.map Prod.fst).count name ≤ 1)
    (depth : Nat) :
    (ofMembers members).fields? names (depth + 1) =
      some fun name => members.lookup name := by
  have hAll :
      (names.all fun name =>
        (members.map Prod.fst).count name ≤ 1) = true :=
    List.all_eq_true.mpr fun name hMem =>
      decide_eq_true (hOnce name hMem)
  rw [ofMembers, fields?, named?_map]
  exact if_pos hAll

/-
  However a record is spelled, its fields are found, and
  they spell what the record holds.
-/
theorem SpelledAs.exists_fields?
    {json : Json}
    {members : List (String × Json)}
    {depth : Nat}
    (hSpelled : (ofMembers members).SpelledAs json)
    (names : List String)
    (hLength : members.length ≠ 1)
    (hNames : members.map Prod.fst = names)
    (hNodup : names.Nodup)
    (hDepth : json.nesting ≤ depth) :
    ∃ inner fields,
      depth = inner + 1 ∧
        json.fields? names depth = some fields ∧
        ∀ member ∈ members,
          Fields.Spell fields inner member.1 member.2 := by
  generalize hForm : ofMembers members = form at hSpelled
  cases hSpelled with
  | variant _ =>
      rw [ofMembers_inj.mp hForm] at hLength
      exact absurd rfl hLength
  | @record others spelled _ hOnce hValues =>
      obtain rfl := ofMembers_inj.mp hForm
      rcases nesting_ofMembers_le_iff.mp hDepth with
        ⟨inner, rfl, hInner⟩
      refine ⟨inner, _, rfl, fields?_ofMembers ?_ inner, ?_⟩
      · intro name hMem
        rw [← hNames] at hMem
        rcases List.mem_map.mp hMem with
          ⟨member, hMember, rfl⟩
        exact Nat.le_of_eq (hOnce member hMember)
      · intro member hMem
        have hThere :
            member.1 ∈ spelled.map Prod.fst := by
          rw [← List.count_pos_iff, hOnce member hMem]
          exact Nat.one_pos
        rcases exists_lookup hThere with
          ⟨value, hLookup, hValue⟩
        exact ⟨value, hLookup, hValues member value hMem hValue,
          hInner _ hValue⟩
  | @row others items _ hItems hValues =>
      obtain rfl := ofMembers_inj.mp hForm
      rcases nesting_array_le_iff.mp hDepth with
        ⟨inner, rfl, hInner⟩
      have hFits : items.length ≤ names.length := by
        rw [hItems, ← hNames, List.length_map]
      refine ⟨inner, _, rfl, if_pos hFits, ?_⟩
      intro member hMem
      rcases List.getElem?_of_mem hMem with ⟨i, hMember⟩
      have hLt := (List.getElem?_eq_some_iff.mp hMember).1
      have hName : names[i]? = some member.1 := by
        rw [← hNames, List.getElem?_map, hMember]
        rfl
      have hPlace : names.idxOf member.1 = i := by
        rcases List.getElem?_eq_some_iff.mp hName with
          ⟨hBound, hAt⟩
        rw [← hAt]
        exact hNodup.idxOf_getElem i hBound
      rw [← hItems] at hLt
      refine ⟨items[i], ?_, ?_, ?_⟩
      · simp only [hPlace, List.getElem?_eq_getElem hLt]
      · exact hValues i member _ hMember
          (List.getElem?_eq_getElem hLt)
      · exact hInner _ (List.getElem_mem hLt)
  | _ => cases hForm

end Json

end HiddenRule

------------------------------------------------------------
-- Plain Values
------------------------------------------------------------

namespace HiddenRule

namespace Json

/- A record of plain fields with distinct names is plain. -/
theorem plain_ofMembers
    {members : List (String × Json)}
    (hNodup : (members.map Prod.fst).Nodup)
    (hPlain : ∀ member ∈ members, member.2.Plain) :
    (ofMembers members).Plain := by
  apply Plain.object
  · exact List.forall_mem_map.mpr fun member _ =>
      ⟨member.1, rfl⟩
  · have hNames := hNodup.map (Option.some_injective String)
    rwa [List.map_map] at hNames ⊢
  · exact List.forall_mem_map.mpr hPlain

/- A variant with plain content is plain. -/
theorem plain_ofVariant
    (name : String)
    {content : Json}
    (hPlain : content.Plain) :
    (ofVariant name content).Plain :=
  plain_ofMembers (List.nodup_singleton _)
    (List.forall_mem_singleton.mpr hPlain)

/- Members that all have names make up a record. -/
theorem exists_ofMembers
    {members : List (Option String × Json)}
    (hNames :
      ∀ member ∈ members, ∃ name, member.1 = some name) :
    ∃ named : List (String × Json),
      members = named.map fun (name, value) =>
        (some name, value) := by
  induction members with
  | nil => exact ⟨[], rfl⟩
  | cons member members ih =>
      rcases member with ⟨name?, value⟩
      rw [List.forall_mem_cons] at hNames
      rcases hNames with ⟨⟨name, rfl⟩, hLater⟩
      rcases ih hLater with ⟨named, rfl⟩
      exact ⟨(name, value) :: named, rfl⟩

/- A plain value is one of its own spellings. -/
theorem Plain.spelledAs_self
    {value : Json}
    (hPlain : value.Plain) :
    value.SpelledAs value := by
  induction hPlain with
  | null => exact .null
  | bool b => exact .bool b
  | number n => exact .number _
  | string text => exact .text text
  | array _ ih =>
      refine .array rfl ?_
      intro i item other hItem hOther
      obtain rfl :=
        Option.some.inj (hItem.symm.trans hOther)
      exact ih item (List.mem_of_getElem? hItem)
  | object hNames hNodup _ ih =>
      rcases exists_ofMembers hNames with ⟨members, rfl⟩
      have hDistinct : (members.map Prod.fst).Nodup := by
        apply List.Nodup.of_map some
        rwa [List.map_map] at hNodup ⊢
      rw [List.forall_mem_map] at ih
      by_cases hOne : members.length = 1
      · rcases List.length_eq_one_iff.mp hOne with
          ⟨member, rfl⟩
        exact .variant (ih member List.mem_cons_self)
      · refine .record hOne ?_ ?_
        · intro member hMem
          exact List.count_eq_one_of_mem hDistinct
            (List.mem_map_of_mem hMem)
        · intro member value hMem hValue
          have hSame : member = (member.1, value) :=
            List.inj_on_of_nodup_map hDistinct hMem hValue rfl
          have hValueEq : value = member.2 :=
            (congrArg Prod.snd hSame).symm
          rw [hValueEq]
          exact ih member hMem

end Json

end HiddenRule
