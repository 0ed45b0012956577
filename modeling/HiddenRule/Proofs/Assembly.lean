import HiddenRule.Proofs.Outcome
import HiddenRule.Rule.Assembly

/-
  This file proves which parts can be put together, and that
  a fragment put together shows the parts it was made of.

  Main declarations:
    * `Constructor.skeleton?_eq_none_iff`
    * `Skeleton.Shows`
    * `Fragment.assemble_parts`
    * `Fragment.assemble_of_roles`
-/

------------------------------------------------------------
-- Views
------------------------------------------------------------

namespace HiddenRule

namespace Fragment

/- The kind of a constructor fixes the role of its nodes. -/
theorem role_eq
    (fragment : Fragment) :
    fragment.role = fragment.constructor.kind.role := by
  cases fragment with
  | rule rule => cases rule <;> rfl
  | predicate predicate => cases predicate <;> rfl
  | group group => cases group <;> rfl
  | groupPredicate predicate => cases predicate <;> rfl

/- A fragment in the role of a rule is a rule. -/
theorem exists_rule
    {fragment : Fragment}
    (hRole : fragment.role = .rule) :
    ∃ rule, fragment = .rule rule := by
  cases fragment with
  | rule rule => exact ⟨rule, rfl⟩
  | predicate _ => exact nomatch hRole
  | group _ => exact nomatch hRole
  | groupPredicate _ => exact nomatch hRole

/- A fragment in the role of a predicate is a predicate. -/
theorem exists_predicate
    {fragment : Fragment}
    (hRole : fragment.role = .predicate) :
    ∃ predicate, fragment = .predicate predicate := by
  cases fragment with
  | rule _ => exact nomatch hRole
  | predicate predicate => exact ⟨predicate, rfl⟩
  | group _ => exact nomatch hRole
  | groupPredicate _ => exact nomatch hRole

/- A fragment in the role of a group is a grouping. -/
theorem exists_group
    {fragment : Fragment}
    (hRole : fragment.role = .group) :
    ∃ group, fragment = .group group := by
  cases fragment with
  | rule _ => exact nomatch hRole
  | predicate _ => exact nomatch hRole
  | group group => exact ⟨group, rfl⟩
  | groupPredicate _ => exact nomatch hRole

/- A fragment in the role of a group test is one. -/
theorem exists_groupPredicate
    {fragment : Fragment}
    (hRole : fragment.role = .groupPredicate) :
    ∃ predicate, fragment = .groupPredicate predicate := by
  cases fragment with
  | rule _ => exact nomatch hRole
  | predicate _ => exact nomatch hRole
  | group _ => exact nomatch hRole
  | groupPredicate predicate => exact ⟨predicate, rfl⟩

/- What is seen as a predicate is that predicate. -/
theorem eq_of_asPredicate?
    (fragment : Fragment)
    {predicate : Predicate}
    (hView : fragment.asPredicate? = some predicate) :
    fragment = .predicate predicate := by
  cases fragment with
  | predicate _ => cases hView; rfl
  | rule _ | group _ | groupPredicate _ =>
      exact nomatch hView

/- What is seen as a grouping is that grouping. -/
theorem eq_of_asGroup?
    (fragment : Fragment)
    {group : Group}
    (hView : fragment.asGroup? = some group) :
    fragment = .group group := by
  cases fragment with
  | group _ => cases hView; rfl
  | rule _ | predicate _ | groupPredicate _ =>
      exact nomatch hView

/- What is seen as a test of groups is that test. -/
theorem eq_of_asGroupPredicate?
    (fragment : Fragment)
    {predicate : GroupPredicate}
    (hView : fragment.asGroupPredicate? = some predicate) :
    fragment = .groupPredicate predicate := by
  cases fragment with
  | groupPredicate _ => cases hView; rfl
  | rule _ | predicate _ | group _ =>
      exact nomatch hView

end Fragment

end HiddenRule

------------------------------------------------------------
-- Flavors
------------------------------------------------------------

namespace HiddenRule

/-
  Values that are listed in the order of their numbers are
  found at their numbers.
-/
theorem index_of_getElem?
    {α : Type}
    {all : List α}
    {index : α → Nat}
    (hOrder : all.map index = List.range all.length)
    {i : Nat}
    {value : α}
    (hGet : all[i]? = some value) :
    index value = i := by
  have hMap : (all.map index)[i]? = some (index value) := by
    rw [List.getElem?_map, hGet]
    rfl
  rw [hOrder, List.getElem?_eq_some_iff] at hMap
  rcases hMap with ⟨hLt, hIndex⟩
  rw [← hIndex, List.getElem_range]

namespace Constructor

/- A constructor with one flavor has a skeleton for 0. -/
theorem plain_eq_some_iff
    {variant : Nat}
    {skeleton result : Skeleton} :
    plain variant skeleton = some result ↔
      variant = 0 ∧ skeleton = result := by
  unfold plain
  split <;> simp_all

/- A constructor has a skeleton for each of its flavors. -/
theorem skeleton?_eq_none_iff
    (constructor : Constructor)
    (variant : Nat) :
    constructor.skeleton? variant = none ↔
      constructor.flavors ≤ variant := by
  cases constructor <;>
    simp [skeleton?, plain, flavors, Color.ofIndex?,
      Color.all, Shape.ofIndex?, Shape.all, Row.ofIndex?,
      Row.all, Column.ofIndex?, Column.all, Axis.ofIndex?,
      Axis.all, Nat.one_le_iff_ne_zero] <;>
    omega

end Constructor

end HiddenRule

------------------------------------------------------------
-- Skeletons
------------------------------------------------------------

namespace HiddenRule

namespace Skeleton

/- The roles of the open slots of a skeleton, in order. -/
def roles : Skeleton → List Role
| .leaf _ => []
| .onPredicate _ => [.predicate]
| .onPredicates _ => [.predicate, .predicate]
| .onGroup _ => [.group, .groupPredicate]

/-
  A fragment shows the constructor, the flavor and the
  children that it was made of.
-/
def Made
    (constructor : Constructor)
    (variant : Nat)
    (children : List Fragment)
    (fragment : Fragment) : Prop :=
  fragment.constructor = constructor ∧
    fragment.variant = variant ∧
      fragment.children = children

/- Whatever fills a skeleton, the fragment shows its parts. -/
def Shows
    (constructor : Constructor)
    (variant : Nat) : Skeleton → Prop
| .leaf fragment => Made constructor variant [] fragment
| .onPredicate build =>
    ∀ p, Made constructor variant [.predicate p] (build p)
| .onPredicates build =>
    ∀ p q,
      Made constructor variant
        [.predicate p, .predicate q] (build p q)
| .onGroup build =>
    ∀ g q,
      Made constructor variant
        [.group g, .groupPredicate q] (build g q)

end Skeleton

namespace Constructor

/- A skeleton has the slots of its constructor. -/
theorem roles_of_skeleton?
    {constructor : Constructor}
    {variant : Nat}
    {skeleton : Skeleton}
    (hSkeleton :
      constructor.skeleton? variant = some skeleton) :
    skeleton.roles = constructor.childRoles := by
  cases constructor <;>
    simp only [skeleton?, plain_eq_some_iff,
      Option.map_eq_some_iff] at hSkeleton <;>
    grind [Skeleton.roles, childRoles]

/- A skeleton with one flavor shows the flavor 0. -/
private theorem shows_of_plain
    {constructor : Constructor}
    {variant : Nat}
    {skeleton result : Skeleton}
    (hPlain : plain variant skeleton = some result)
    (hShows : skeleton.Shows constructor 0) :
    result.Shows constructor variant := by
  rcases plain_eq_some_iff.mp hPlain with ⟨hZero, hEq⟩
  rw [hZero, ← hEq]
  exact hShows

/- A skeleton with numbered flavors shows the number. -/
private theorem shows_of_map
    {α : Type}
    {all : List α}
    {index : α → Nat}
    {build : α → Skeleton}
    {constructor : Constructor}
    {variant : Nat}
    {result : Skeleton}
    (hMap : all[variant]?.map build = some result)
    (hOrder : all.map index = List.range all.length)
    (hShows :
      ∀ value, (build value).Shows constructor (index value)) :
    result.Shows constructor variant := by
  rcases Option.map_eq_some_iff.mp hMap with
    ⟨value, hGet, hBuild⟩
  rw [← index_of_getElem? hOrder hGet, ← hBuild]
  exact hShows value

/- A skeleton shows its constructor and its flavor. -/
theorem shows_of_skeleton?
    {constructor : Constructor}
    {variant : Nat}
    {skeleton : Skeleton}
    (hSkeleton :
      constructor.skeleton? variant = some skeleton) :
    skeleton.Shows constructor variant := by
  cases constructor with
  | universal
  | existential
  | negativeUniversal
  | groupRule =>
      exact shows_of_plain hSkeleton
        fun _ _ => ⟨rfl, rfl, rfl⟩
  | adjacencyPredicate =>
      exact shows_of_plain hSkeleton
        fun _ => ⟨rfl, rfl, rfl⟩
  | lineRule =>
      exact shows_of_map hSkeleton rfl
        fun _ _ => ⟨rfl, rfl, rfl⟩
  | colorNoun
  | shapeNoun
  | rowNoun
  | columnNoun
  | colorPredicate
  | shapePredicate
  | rowPredicate
  | columnPredicate
  | lineGroup =>
      exact shows_of_map hSkeleton rfl
        fun _ => ⟨rfl, rfl, rfl⟩
  | emptyCellNoun
  | colorGroup
  | shapeGroup
  | identicalGroup
  | adjacentGroup
  | colorGroupPredicate
  | shapeGroupPredicate
  | colorDistinctGroupPredicate
  | shapeDistinctGroupPredicate
  | colorShapeGroupPredicate
  | contiguousGroupPredicate =>
      exact shows_of_plain hSkeleton ⟨rfl, rfl, rfl⟩

end Constructor

end HiddenRule

------------------------------------------------------------
-- Filling
------------------------------------------------------------

namespace HiddenRule

namespace Skeleton

/- A child that is taken is the part that is seen in it. -/
private theorem takeChild_ok
    {α : Type}
    {constructor : Constructor}
    {slot : Nat}
    {expected : Role}
    {view : Fragment → Option α}
    {wrap : α → Fragment}
    {children rest : List Fragment}
    {part : α}
    (hView :
      ∀ child {part}, view child = some part →
        child = wrap part)
    (hTake :
      takeChild constructor slot expected view children =
        .ok (part, rest)) :
    children = wrap part :: rest := by
  unfold takeChild at hTake
  split at hTake
  · exact nomatch hTake
  · rename_i child later
    split at hTake
    · rename_i found hFound
      cases hTake
      rw [hView child hFound]
    · exact nomatch hTake

/- Nothing is left over in a finished fragment. -/
private theorem finish_ok
    {constructor : Constructor}
    {taken : Nat}
    {rest : List Fragment}
    {built fragment : Fragment}
    (hFinish :
      finish constructor taken rest built = .ok fragment) :
    rest = [] ∧ built = fragment := by
  unfold finish at hFinish
  split at hFinish
  · rename_i hEmpty
    cases hFinish
    exact ⟨List.isEmpty_iff.mp hEmpty, rfl⟩
  · exact nomatch hFinish

/- A filled skeleton shows its parts, which fit its slots. -/
theorem fill_ok
    {constructor : Constructor}
    {variant : Nat}
    {children : List Fragment}
    {skeleton : Skeleton}
    {fragment : Fragment}
    (hShows : skeleton.Shows constructor variant)
    (hFill :
      skeleton.fill constructor children = .ok fragment) :
    Made constructor variant children fragment ∧
      children.map Fragment.role = skeleton.roles := by
  cases skeleton with
  | leaf built =>
      rcases finish_ok hFill with ⟨hRest, hBuilt⟩
      subst hRest hBuilt
      exact ⟨hShows, rfl⟩
  | onPredicate build =>
      rcases bind_eq_ok_iff.mp hFill with
        ⟨⟨p, rest⟩, hTake, hFinish⟩
      have hChildren :=
        takeChild_ok Fragment.eq_of_asPredicate? hTake
      rcases finish_ok hFinish with ⟨hRest, hBuilt⟩
      subst hRest hBuilt hChildren
      exact ⟨hShows p, rfl⟩
  | onPredicates build =>
      rcases bind_eq_ok_iff.mp hFill with
        ⟨⟨p, later⟩, hTake, hFillLater⟩
      rcases bind_eq_ok_iff.mp hFillLater with
        ⟨⟨q, rest⟩, hTakeLater, hFinish⟩
      have hChildren :=
        takeChild_ok Fragment.eq_of_asPredicate? hTake
      have hLater :=
        takeChild_ok Fragment.eq_of_asPredicate? hTakeLater
      rcases finish_ok hFinish with ⟨hRest, hBuilt⟩
      subst hRest hBuilt hLater hChildren
      exact ⟨hShows p q, rfl⟩
  | onGroup build =>
      rcases bind_eq_ok_iff.mp hFill with
        ⟨⟨g, later⟩, hTake, hFillLater⟩
      rcases bind_eq_ok_iff.mp hFillLater with
        ⟨⟨q, rest⟩, hTakeLater, hFinish⟩
      have hChildren :=
        takeChild_ok Fragment.eq_of_asGroup? hTake
      have hLater :=
        takeChild_ok Fragment.eq_of_asGroupPredicate?
          hTakeLater
      rcases finish_ok hFinish with ⟨hRest, hBuilt⟩
      subst hRest hBuilt hLater hChildren
      exact ⟨hShows g q, rfl⟩

/- Children in the roles of the slots fill a skeleton. -/
theorem exists_fill
    (constructor : Constructor)
    {children : List Fragment}
    {skeleton : Skeleton}
    (hRoles :
      children.map Fragment.role = skeleton.roles) :
    ∃ fragment,
      skeleton.fill constructor children = .ok fragment := by
  cases skeleton with
  | leaf built =>
      rw [List.map_eq_nil_iff.mp hRoles]
      exact ⟨built, rfl⟩
  | onPredicate build =>
      rcases List.map_eq_cons_iff.mp hRoles with
        ⟨first, rest, hCons, hFirst, hRest⟩
      rcases Fragment.exists_predicate hFirst with ⟨p, hP⟩
      rw [hCons, hP, List.map_eq_nil_iff.mp hRest]
      exact ⟨build p, rfl⟩
  | onPredicates build =>
      rcases List.map_eq_cons_iff.mp hRoles with
        ⟨first, later, hCons, hFirst, hLater⟩
      rcases List.map_eq_cons_iff.mp hLater with
        ⟨second, rest, hConsLater, hSecond, hRest⟩
      rcases Fragment.exists_predicate hFirst with ⟨p, hP⟩
      rcases Fragment.exists_predicate hSecond with ⟨q, hQ⟩
      rw [hCons, hConsLater, hP, hQ,
        List.map_eq_nil_iff.mp hRest]
      exact ⟨build p q, rfl⟩
  | onGroup build =>
      rcases List.map_eq_cons_iff.mp hRoles with
        ⟨first, later, hCons, hFirst, hLater⟩
      rcases List.map_eq_cons_iff.mp hLater with
        ⟨second, rest, hConsLater, hSecond, hRest⟩
      rcases Fragment.exists_group hFirst with ⟨g, hG⟩
      rcases Fragment.exists_groupPredicate hSecond with
        ⟨q, hQ⟩
      rw [hCons, hConsLater, hG, hQ,
        List.map_eq_nil_iff.mp hRest]
      exact ⟨build g q, rfl⟩

end Skeleton

end HiddenRule

------------------------------------------------------------
-- Assembly
------------------------------------------------------------

namespace HiddenRule

namespace Fragment

/-
  A fragment put together shows its parts; the flavor is in
  range, and the children fit the slots.
-/
theorem assemble_parts
    {constructor : Constructor}
    {variant : Nat}
    {children : List Fragment}
    {fragment : Fragment}
    (hAssemble :
      assemble constructor variant children = .ok fragment) :
    Skeleton.Made constructor variant children fragment ∧
      variant < constructor.flavors ∧
        children.map role = constructor.childRoles := by
  unfold assemble at hAssemble
  split at hAssemble
  · exact nomatch hAssemble
  · rename_i skeleton hSkeleton
    have hShows :=
      Constructor.shows_of_skeleton? hSkeleton
    rcases Skeleton.fill_ok hShows hAssemble with
      ⟨hMade, hRoles⟩
    have hFlavor : variant < constructor.flavors := by
      apply Nat.lt_of_not_le
      intro hLe
      rw [← Constructor.skeleton?_eq_none_iff] at hLe
      rw [hLe] at hSkeleton
      exact nomatch hSkeleton
    refine ⟨hMade, hFlavor, ?_⟩
    rw [hRoles, Constructor.roles_of_skeleton? hSkeleton]

/-
  Children that fit the slots are put together, unless the
  flavor is out of range.
-/
theorem assemble_of_roles
    {constructor : Constructor}
    (variant : Nat)
    {children : List Fragment}
    (hRoles :
      children.map role = constructor.childRoles) :
    (∃ fragment,
      assemble constructor variant children =
        .ok fragment) ∨
    (constructor.flavors ≤ variant ∧
      assemble constructor variant children =
        .error (.malformedVariant constructor variant
          constructor.flavors)) := by
  unfold assemble
  split
  · rename_i hNone
    exact Or.inr
      ⟨(Constructor.skeleton?_eq_none_iff _ _).mp hNone, rfl⟩
  · rename_i skeleton hSkeleton
    left
    apply Skeleton.exists_fill
    rw [hRoles, Constructor.roles_of_skeleton? hSkeleton]

end Fragment

end HiddenRule
