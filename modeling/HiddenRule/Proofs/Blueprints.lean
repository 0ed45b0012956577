import HiddenRule.Proofs.Assembly
import HiddenRule.Proofs.Nodes

/-
  This file proves which parts are refused when a fragment is
  put together, and that every fragment is put together from
  its own parts and from no others.

  The children are compared with the slots from left to
  right, so the first misfit is the one that is reported, and
  a surplus shows only when every slot is filled.  Taken
  apart at every node, a fragment gives a blueprint; built
  from the bottom up, the blueprint gives the fragment back.

  Main declarations:
    * `FirstMisfit` and `Fragment.Refuses`
    * `Skeleton.refusal` and `Skeleton.refusal_of_fill`
    * `Fragment.assemble_eq_error_iff`
    * `Fragment.assemble_eq_ok_iff`
    * `Blueprint`, `Blueprint.build`, `Fragment.blueprint`
    * `Blueprint.build_eq_ok_iff`
    * `Fragment.assembles_exactly_its_parts`
-/

------------------------------------------------------------
-- Refused Parts
------------------------------------------------------------

namespace HiddenRule

/-
  The first slot that the roles of the children do not fit:
  there is no child, or one of another role, and the earlier
  slots have what they want.
-/
structure FirstMisfit
    (slots given : List Role)
    (slot : Nat)
    (wanted : Role)
    (found : Option Role) : Prop where
  wanted_eq : slots[slot]? = some wanted
  found_eq : given[slot]? = found
  misfit : found ≠ some wanted
  earlier : ∀ i < slot, given[i]? = slots[i]?

namespace FirstMisfit

variable {slots given : List Role}
variable {slot : Nat}
variable {wanted first : Role}
variable {found : Option Role}

/- The first slot is the first misfit if it is not fitted. -/
theorem cons_iff_of_ne
    (hFirst : given[0]? ≠ some first) :
    FirstMisfit (first :: slots) given slot wanted found ↔
      slot = 0 ∧ wanted = first ∧ found = given[0]? := by
  constructor
  · intro ⟨hWanted, hFound, _, hEarlier⟩
    cases slot with
    | zero =>
        exact ⟨rfl, (Option.some.inj hWanted).symm,
          hFound.symm⟩
    | succ slot =>
        exact absurd (hEarlier 0 (Nat.zero_lt_succ _)) hFirst
  · rintro ⟨rfl, rfl, rfl⟩
    exact ⟨rfl, rfl, hFirst,
      fun i hLt => absurd hLt (Nat.not_lt_zero i)⟩

/- Otherwise the first misfit is a later one. -/
theorem cons_cons_iff :
    FirstMisfit (first :: slots) (first :: given) slot wanted
        found ↔
      ∃ i, slot = i + 1 ∧
        FirstMisfit slots given i wanted found := by
  constructor
  · intro ⟨hWanted, hFound, hMisfit, hEarlier⟩
    cases slot with
    | zero =>
        rw [List.getElem?_cons_zero] at hWanted hFound
        rw [← hFound, hWanted] at hMisfit
        exact absurd rfl hMisfit
    | succ i =>
        exact ⟨i, rfl, hWanted, hFound, hMisfit,
          fun j hLt => hEarlier (j + 1) (Nat.succ_lt_succ hLt)⟩
  · rintro ⟨i, rfl, hWanted, hFound, hMisfit, hEarlier⟩
    refine ⟨hWanted, hFound, hMisfit, fun j hLt => ?_⟩
    cases j with
    | zero => rfl
    | succ j => exact hEarlier j (Nat.lt_of_succ_lt_succ hLt)

end FirstMisfit

/-
  Why parts are refused: the flavor is out of range, else a
  slot is not fitted, else children are left over.
-/
inductive Fragment.Refuses
    (constructor : Constructor)
    (variant : Nat)
    (children : List Fragment) : BuildError → Prop
| flavor :
    constructor.flavors ≤ variant →
    Refuses constructor variant children
      (.malformedVariant constructor variant
        constructor.flavors)
| misfit {slot : Nat} {wanted : Role} {found : Option Role} :
    variant < constructor.flavors →
    FirstMisfit constructor.childRoles
      (children.map role) slot wanted found →
    Refuses constructor variant children
      (.childMismatch constructor slot wanted found)
| surplus :
    variant < constructor.flavors →
    constructor.childRoles <+: children.map role →
    constructor.childRoles.length < children.length →
    Refuses constructor variant children
      (.childCount constructor constructor.childRoles.length
        children.length)

------------------------------------------------------------
-- Slot By Slot
------------------------------------------------------------

namespace Skeleton

/-
  What is wrong with children of given roles for the slots
  from one onwards, if anything is.
-/
def refusal
    (constructor : Constructor) :
    (slot : Nat) → (slots given : List Role) →
      Option BuildError
| slot, [], given =>
    if given.isEmpty then
      none
    else
      some (.childCount constructor slot
        (slot + given.length))
| slot, wanted :: _, [] =>
    some (.childMismatch constructor slot wanted none)
| slot, wanted :: slots, found :: given =>
    if found = wanted then
      refusal constructor (slot + 1) slots given
    else
      some (.childMismatch constructor slot wanted
        (some found))

variable {constructor : Constructor}
variable {slot : Nat}
variable {error : BuildError}

/- A surplus is what is wrong when no slot is open. -/
private theorem refusal_of_finish
    {rest : List Fragment}
    {fragment : Fragment}
    (hFinish :
      finish constructor slot rest fragment =
        .error error) :
    refusal constructor slot [] (rest.map Fragment.role) =
      some error := by
  unfold finish at hFinish
  split at hFinish
  · exact nomatch hFinish
  · rename_i hRest
    cases hFinish
    cases rest with
    | nil => exact absurd rfl hRest
    | cons _ _ => simp [refusal]

/-
  What is wrong is found at the next slot, or behind it if
  the child there has the role of the slot.
-/
private theorem refusal_of_takeChild
    {Part : Type}
    {wanted : Role}
    {slots : List Role}
    {view : Fragment → Option Part}
    {children : List Fragment}
    {later :
      Part × List Fragment → Except BuildError Fragment}
    (hView :
      ∀ child, (view child).isSome ↔ child.role = wanted)
    (hTake :
      takeChild constructor slot wanted view children >>=
        later = .error error)
    (hLater :
      ∀ part rest,
        later (part, rest) = .error error →
          refusal constructor (slot + 1) slots
            (rest.map Fragment.role) = some error) :
    refusal constructor slot (wanted :: slots)
      (children.map Fragment.role) = some error := by
  cases children with
  | nil =>
      cases hTake
      rfl
  | cons child rest =>
      rw [List.map_cons, refusal]
      rw [takeChild] at hTake
      cases hPart : view child with
      | some part =>
          have hRole : child.role = wanted := by
            rw [← hView, hPart]
            rfl
          rw [hPart] at hTake
          rw [if_pos hRole]
          exact hLater part rest hTake
      | none =>
          have hRole : child.role ≠ wanted := by
            rw [Ne, ← hView, hPart]
            exact Bool.false_ne_true
          rw [hPart] at hTake
          rw [if_neg hRole]
          cases hTake
          rfl

private theorem asPredicate?_isSome_iff
    (child : Fragment) :
    child.asPredicate?.isSome ↔ child.role = .predicate := by
  cases child <;> simp [Fragment.asPredicate?, Fragment.role]

private theorem asGroup?_isSome_iff
    (child : Fragment) :
    child.asGroup?.isSome ↔ child.role = .group := by
  cases child <;> simp [Fragment.asGroup?, Fragment.role]

private theorem asGroupPredicate?_isSome_iff
    (child : Fragment) :
    child.asGroupPredicate?.isSome ↔
      child.role = .groupPredicate := by
  cases child <;>
    simp [Fragment.asGroupPredicate?, Fragment.role]

/- A skeleton that is not filled reports what is wrong. -/
theorem refusal_of_fill
    {children : List Fragment}
    {skeleton : Skeleton}
    (hFill :
      skeleton.fill constructor children = .error error) :
    refusal constructor 0 skeleton.roles
      (children.map Fragment.role) = some error := by
  cases skeleton with
  | leaf built => exact refusal_of_finish hFill
  | onPredicate build =>
      apply refusal_of_takeChild asPredicate?_isSome_iff hFill
      intro p rest hFinish
      exact refusal_of_finish hFinish
  | onPredicates build =>
      apply refusal_of_takeChild asPredicate?_isSome_iff hFill
      intro p rest hLater
      apply refusal_of_takeChild asPredicate?_isSome_iff
        hLater
      intro q rest hFinish
      exact refusal_of_finish hFinish
  | onGroup build =>
      apply refusal_of_takeChild asGroup?_isSome_iff hFill
      intro g rest hLater
      apply refusal_of_takeChild asGroupPredicate?_isSome_iff
        hLater
      intro q rest hFinish
      exact refusal_of_finish hFinish

/- Nothing is wrong with children in the roles of slots. -/
theorem refusal_self
    (constructor : Constructor)
    (slot : Nat)
    (slots : List Role) :
    refusal constructor slot slots slots = none := by
  induction slots generalizing slot with
  | nil => rfl
  | cons wanted slots ih =>
      rw [refusal, if_pos rfl]
      exact ih _

/- Nothing is behind a first slot that is not fitted. -/
private theorem refusal_of_ne
    {wanted : Role}
    {slots given : List Role}
    (hFirst : given[0]? ≠ some wanted) :
    refusal constructor slot (wanted :: slots) given =
      some (.childMismatch constructor slot wanted
        given[0]?) := by
  cases given with
  | nil => rfl
  | cons found given =>
      rw [refusal, if_neg]
      · rfl
      · intro hEq
        exact hFirst (congrArg some hEq)

/- What is wrong is the first misfit, or else a surplus. -/
theorem refusal_eq_some_iff
    {slots given : List Role} :
    refusal constructor slot slots given = some error ↔
      (∃ i wanted found,
        FirstMisfit slots given i wanted found ∧
          error =
            .childMismatch constructor (slot + i) wanted
              found) ∨
      (slots <+: given ∧ slots.length < given.length ∧
        error =
          .childCount constructor (slot + slots.length)
            (slot + given.length)) := by
  induction slots generalizing slot given with
  | nil =>
      have hNone :
          ∀ i wanted found,
            ¬ FirstMisfit [] given i wanted found :=
        fun _ _ _ hMisfit => nomatch hMisfit.wanted_eq
      cases given <;> simp [refusal, hNone, eq_comm]
  | cons wanted slots ih =>
      by_cases hFirst : given[0]? = some wanted
      · cases given with
        | nil => exact nomatch hFirst
        | cons found given =>
            cases hFirst
            -- What is slot `i` behind the first one is slot
            -- `i + 1` of all of them.
            have hShift (n : Nat) :
                slot + 1 + n = slot + (n + 1) := by
              omega
            simp only [refusal, if_true, ih, hShift,
              FirstMisfit.cons_cons_iff,
              List.cons_prefix_cons, List.length_cons,
              Nat.add_lt_add_iff_right, true_and]
            apply or_congr_left
            constructor
            · intro ⟨i, wanted, found, hMisfit, hError⟩
              exact ⟨i + 1, wanted, found,
                ⟨i, rfl, hMisfit⟩, hError⟩
            · rintro
                ⟨_, wanted, found, ⟨i, rfl, hMisfit⟩, hError⟩
              exact ⟨i, wanted, found, hMisfit, hError⟩
      · have hPrefix : ¬ wanted :: slots <+: given := by
          rintro ⟨rest, rfl⟩
          exact hFirst rfl
        simp only [refusal_of_ne hFirst,
          FirstMisfit.cons_iff_of_ne hFirst, hPrefix,
          false_and, or_false, Option.some.injEq]
        constructor
        · intro hError
          exact ⟨0, wanted, given[0]?, ⟨rfl, rfl, rfl⟩,
            hError.symm⟩
        · rintro ⟨_, _, _, ⟨rfl, rfl, rfl⟩, hError⟩
          exact hError.symm

end Skeleton

end HiddenRule

------------------------------------------------------------
-- Parts Put Together
------------------------------------------------------------

namespace HiddenRule

namespace Fragment

variable {constructor : Constructor}
variable {variant : Nat}
variable {children : List Fragment}
variable {fragment : Fragment}
variable {error : BuildError}

/- In a flavor that exists, the children are to blame. -/
private theorem refuses_iff_refusal
    (hFlavor : variant < constructor.flavors) :
    Refuses constructor variant children error ↔
      Skeleton.refusal constructor 0 constructor.childRoles
        (children.map role) = some error := by
  rw [Skeleton.refusal_eq_some_iff]
  simp only [Nat.zero_add, List.length_map]
  constructor
  · intro hRefuses
    cases hRefuses with
    | flavor hLe => exact absurd hFlavor (Nat.not_lt.mpr hLe)
    | misfit _ hMisfit =>
        exact Or.inl ⟨_, _, _, hMisfit, rfl⟩
    | surplus _ hPrefix hMore =>
        exact Or.inr ⟨hPrefix, hMore, rfl⟩
  · rintro (⟨_, _, _, hMisfit, rfl⟩ | ⟨hPrefix, hMore, rfl⟩)
    · exact Refuses.misfit hFlavor hMisfit
    · exact Refuses.surplus hFlavor hPrefix hMore

/- An error says what is wrong with the children. -/
private theorem refusal_of_assemble
    (hFlavor : variant < constructor.flavors)
    (hAssemble :
      assemble constructor variant children =
        .error error) :
    Skeleton.refusal constructor 0 constructor.childRoles
      (children.map role) = some error := by
  unfold assemble at hAssemble
  split at hAssemble
  · rename_i hNone
    rw [Constructor.skeleton?_eq_none_iff] at hNone
    exact absurd hFlavor (Nat.not_lt.mpr hNone)
  · rename_i skeleton hSkeleton
    rw [← Constructor.roles_of_skeleton? hSkeleton]
    exact Skeleton.refusal_of_fill hAssemble

/-
  Parts are not put together exactly if they are refused, and
  the error is the one they are refused with.
-/
theorem assemble_eq_error_iff :
    assemble constructor variant children = .error error ↔
      Refuses constructor variant children error := by
  rcases Nat.lt_or_ge variant constructor.flavors with
    hFlavor | hNoFlavor
  · rw [refuses_iff_refusal hFlavor]
    constructor
    · exact refusal_of_assemble hFlavor
    · intro hRefusal
      cases hAssemble :
          assemble constructor variant children with
      | ok fragment =>
          have hRoles := (assemble_parts hAssemble).2.2
          rw [hRoles, Skeleton.refusal_self] at hRefusal
          exact nomatch hRefusal
      | error other =>
          have hOther :=
            refusal_of_assemble hFlavor hAssemble
          rw [hOther] at hRefusal
          rw [Option.some.inj hRefusal]
  · have hNone :=
      (Constructor.skeleton?_eq_none_iff
        constructor variant).mpr hNoFlavor
    rw [assemble, hNone]
    constructor
    · intro hError
      cases hError
      exact Refuses.flavor hNoFlavor
    · intro hRefuses
      cases hRefuses with
      | flavor _ => rfl
      | misfit hFlavor _
      | surplus hFlavor _ _ =>
          exact absurd hFlavor (Nat.not_lt.mpr hNoFlavor)

/- A line rule in a third direction, and without a noun. -/
example :
    assemble .lineRule 2 [] =
      .error (.malformedVariant .lineRule 2 2) :=
  rfl

/- Parts of the right shape are put together. -/
theorem exists_assemble_iff :
    (∃ fragment,
      assemble constructor variant children =
        .ok fragment) ↔
      variant < constructor.flavors ∧
        children.map role = constructor.childRoles := by
  constructor
  · intro ⟨fragment, hAssemble⟩
    exact (assemble_parts hAssemble).2
  · intro ⟨hFlavor, hRoles⟩
    rcases assemble_of_roles variant hRoles with
      hOk | ⟨hLe, _⟩
    · exact hOk
    · exact absurd hFlavor (Nat.not_lt.mpr hLe)

/- A fragment is put together from its own parts. -/
theorem assemble_self
    (fragment : Fragment) :
    assemble fragment.constructor fragment.variant
      fragment.children = .ok fragment := by
  cases fragment with
  | rule rule =>
      cases rule with
      | line axis noun => cases axis <;> rfl
      | _ => rfl
  | predicate test =>
      cases test with
      | color c | colorNoun c => cases c <;> rfl
      | shape s | shapeNoun s => cases s <;> rfl
      | row r | rowNoun r => cases r <;> rfl
      | column c | columnNoun c => cases c <;> rfl
      | _ => rfl
  | group g =>
      cases g with
      | line axis => cases axis <;> rfl
      | _ => rfl
  | groupPredicate q => cases q <;> rfl

/- It is put together from no other parts. -/
theorem assemble_eq_ok_iff :
    assemble constructor variant children = .ok fragment ↔
      Skeleton.Made constructor variant children
        fragment := by
  constructor
  · intro hAssemble
    exact (assemble_parts hAssemble).1
  · rintro ⟨rfl, rfl, rfl⟩
    exact assemble_self fragment

end Fragment

end HiddenRule

------------------------------------------------------------
-- Blueprints
------------------------------------------------------------

namespace HiddenRule

/-
  A plan for a fragment: a constructor and the number of a
  flavor at every node, whether they fit or not.
-/
inductive Blueprint where
| node : Constructor → Nat → List Blueprint → Blueprint

namespace Blueprint

mutual

/- The fragment that a plan gives, from the bottom up. -/
def build : Blueprint → Except BuildError Fragment
| .node constructor variant children => do
    let fragments ← buildAll children
    Fragment.assemble constructor variant fragments

/- The fragments that plans give, from left to right. -/
def buildAll :
    List Blueprint → Except BuildError (List Fragment)
| [] => .ok []
| first :: rest => do
    let fragment ← build first
    let fragments ← buildAll rest
    .ok (fragment :: fragments)

end

end Blueprint

/- The plan that lists what a fragment shows at each node. -/
def Fragment.blueprint
    (fragment : Fragment) : Blueprint :=
  .node fragment.constructor fragment.variant
    (fragment.children.attach.map fun child =>
      child.val.blueprint)
termination_by fragment.nodeCount
decreasing_by exact nodeCount_lt child.property

/- Below the top are the plans of the children. -/
theorem Fragment.blueprint_eq
    (fragment : Fragment) :
    fragment.blueprint =
      .node fragment.constructor fragment.variant
        (fragment.children.map blueprint) := by
  rw [blueprint, List.attach_map_val]

namespace Blueprint

mutual

/- A plan that gives a fragment is the one it shows. -/
private theorem eq_blueprint_of_build :
    ∀ {blueprint : Blueprint} {fragment : Fragment},
      build blueprint = .ok fragment →
        blueprint = fragment.blueprint
| .node constructor variant children, fragment, hBuild => by
    rw [build] at hBuild
    rcases bind_eq_ok_iff.mp hBuild with
      ⟨fragments, hChildren, hAssemble⟩
    rcases Fragment.assemble_eq_ok_iff.mp hAssemble with
      ⟨hConstructor, hVariant, hFragments⟩
    rw [fragment.blueprint_eq, hConstructor, hVariant,
      hFragments, eq_blueprints_of_buildAll hChildren]

/- Plans that give fragments are the ones they show. -/
private theorem eq_blueprints_of_buildAll :
    ∀ {blueprints : List Blueprint}
      {fragments : List Fragment},
      buildAll blueprints = .ok fragments →
        blueprints = fragments.map Fragment.blueprint
| [], fragments, hBuild => by
    rw [buildAll] at hBuild
    cases hBuild
    rfl
| first :: rest, fragments, hBuild => by
    rw [buildAll] at hBuild
    rcases bind_eq_ok_iff.mp hBuild with
      ⟨fragment, hFirst, hOthers⟩
    rcases bind_eq_ok_iff.mp hOthers with
      ⟨others, hRest, hEq⟩
    cases hEq
    rw [List.map_cons, eq_blueprint_of_build hFirst,
      eq_blueprints_of_buildAll hRest]

end

/- Plans give the fragments that each of them gives. -/
private theorem buildAll_of_forall
    {fragments : List Fragment}
    (hEach :
      ∀ fragment ∈ fragments,
        build fragment.blueprint = .ok fragment) :
    buildAll (fragments.map Fragment.blueprint) =
      .ok fragments := by
  induction fragments with
  | nil => rfl
  | cons first rest ih =>
      rcases List.forall_mem_cons.mp hEach with
        ⟨hFirst, hRest⟩
      rw [List.map_cons, buildAll, hFirst, ok_bind,
        ih hRest, ok_bind]

/- The plan that a fragment shows gives the fragment. -/
private theorem build_blueprint
    (fragment : Fragment) :
    build fragment.blueprint = .ok fragment := by
  induction fragment using Fragment.induction_on_children with
  | step fragment ih =>
      rw [fragment.blueprint_eq, build,
        buildAll_of_forall ih, ok_bind]
      exact fragment.assemble_self

/- The plan that a fragment shows is the one that gives it. -/
theorem build_eq_ok_iff
    {blueprint : Blueprint}
    {fragment : Fragment} :
    build blueprint = .ok fragment ↔
      blueprint = fragment.blueprint := by
  constructor
  · exact eq_blueprint_of_build
  · rintro rfl
    exact build_blueprint fragment

end Blueprint

/-
  Exactly the parts of the right shape are put together.  The
  fragment shows them, and they alone give it; all others are
  refused at the flavor, the first misfit or the surplus, in
  this order.  The one plan that gives a fragment from the
  bottom up lists what it shows at each node.
-/
theorem Fragment.assembles_exactly_its_parts
    (constructor : Constructor)
    (variant : Nat)
    (children : List Fragment) :
    ((∃ fragment,
      assemble constructor variant children =
        .ok fragment) ↔
      variant < constructor.flavors ∧
        children.map role = constructor.childRoles) ∧
    (∀ fragment,
      assemble constructor variant children =
          .ok fragment ↔
        fragment.constructor = constructor ∧
        fragment.variant = variant ∧
        fragment.children = children) ∧
    (∀ error,
      assemble constructor variant children =
          .error error ↔
        Refuses constructor variant children error) ∧
    (∀ (blueprint : Blueprint) (fragment : Fragment),
      blueprint.build = .ok fragment ↔
        blueprint = fragment.blueprint) :=
  ⟨exists_assemble_iff, fun _ => assemble_eq_ok_iff,
    fun _ => assemble_eq_error_iff,
    fun _ _ => Blueprint.build_eq_ok_iff⟩

end HiddenRule
