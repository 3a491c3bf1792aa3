import Agapornis.Runtime.EditedChildren

namespace Agapornis
namespace Runtime

open Foundations Agapornis.Core

/-!
# Editing a document again

When the same edits are made again, an edit which names a key or an index
finds what it made before, or what made way for it does so again.  A wildcard
may find more than the first time: children that a later edit made.
-/

variable (texts : ValueTexts)

/-- A segment makes the child which it names, and the elements of an array before it. -/
def Makes : PathSegment -> ChildStep -> Prop
  | .key name, .key other => other = name
  | .index position, .index other => other <= position
  | _, _ => False

/-- A child that a later edit names is there already if an earlier one has a wildcard for it. -/
def Foreseen (node : Value) (earlier later : PathEdit) : Prop :=
  earlier.1.head? = some .wildcard -> forall step, later.1.head? = some (stepSegment step) ->
    (node.child step).isSome = true

/-- What is foreseen at a place which is in a document or is made by the edits. -/
def ForeseenAt : List ChildStep -> List PathEdit -> Value -> Prop
  | [], edits, node => edits.Pairwise (Foreseen node)
  | step :: place, edits, node =>
      ((node.child step).isSome = true \/ Exists fun edit => edit ∈ edits /\ Exists fun segment =>
        edit.1.head? = some segment /\ Makes segment step) ->
      ForeseenAt place (editsFor step edits) ((node.child step).getD .null)

/-- No edit makes a child for which an earlier one has a wildcard. -/
def AllForeseen (edits : List PathEdit) (node : Value) : Prop :=
  forall place, ForeseenAt place edits node

/-! ## What a value has after some of the edits -/

def stepKind : ChildStep -> Kind
  | .key _ => .object
  | .index _ => .array

theorem segmentKind_stepSegment (step : ChildStep) : segmentKind (stepSegment step) = some (stepKind step) := by
  cases step <;> rfl

theorem stepSegment_injective {step other : ChildStep} (same : stepSegment step = stepSegment other) :
    step = other := by
  cases step with
  | key name =>
      cases other with
      | key _ => rw [PathSegment.key.inj same]
      | index _ => cases same
  | index position =>
      cases other with
      | key _ => cases same
      | index _ => rw [PathSegment.index.inj same]

theorem makes_self (step : ChildStep) : Makes (stepSegment step) step := by
  cases step with
  | key name => rfl
  | index position => exact Nat.le_refl position

instance makesDecidable : (segment : PathSegment) -> (step : ChildStep) -> Decidable (Makes segment step)
  | .key name, .key other => inferInstanceAs (Decidable (other = name))
  | .index position, .index other => inferInstanceAs (Decidable (other <= position))
  | .key _, .index _ => isFalse id
  | .index _, .key _ => isFalse id
  | .wildcard, _ => isFalse id

/-- The children of a value after an edit which names one of them. -/
theorem child_step_edit (texts : ValueTexts) (replacement : Value) (named : ChildStep) (rest : List PathSegment)
    (node : Value) (step : ChildStep) :
    (setStructuredPath texts replacement (stepSegment named :: rest) node).child step =
      if step = named then some (setStructuredPath texts replacement rest (childOrInitial named rest node))
      else if Makes (stepSegment named) step then some (childOrInitial step rest node)
      else if stepKind step = stepKind named then node.child step
      else none := by
  by_cases same : step = named
  · rw [if_pos same, same, child_step_set]
  · rw [if_neg same]
    cases named with
    | key name =>
        cases step with
        | key other =>
            have different : Not (other = name) := fun again => same (congrArg ChildStep.key again)
            rw [stepSegment, child_key_set, if_neg different,
              if_neg (show Not (Makes (.key name) (.key other)) from different),
              if_pos (show stepKind (.key other) = stepKind (.key name) from rfl)]
        | index other => exact child_key_set_index texts replacement name rest node other
    | index position =>
        cases step with
        | key other => rfl
        | index other =>
            have different : Not (other = position) := fun again => same (congrArg ChildStep.index again)
            rw [stepSegment, child_index_set, if_neg different]
            by_cases below : other < position
            · rw [if_pos below, if_pos (show Makes (.index position) (.index other) from Nat.le_of_lt below)]
            · have above : Not (other <= position) := by omega
              rw [if_neg below, if_neg (show Not (Makes (.index position) (.index other)) from above),
                if_pos (show stepKind (.index other) = stepKind (.index position) from rfl)]

theorem child_initialValue (next : Option PathSegment) (step : ChildStep) : (initialValue next).child step = none := by
  unfold initialValue
  split <;> cases step <;> rfl

/-- The value that a child began as: the one in the document, or a new one. -/
def Origin (node : Value) (all : List PathEdit) (step : ChildStep) (first : Value) : Prop :=
  node.child step = some first \/ node.child step = none /\
    (Exists fun edit => edit ∈ all /\ Exists fun segment => edit.1.head? = some segment /\ Makes segment step) /\
    Exists fun next => first = initialValue next

/-- What a value has when some of the edits are done which are all for one kind of value. -/
structure Progress (texts : ValueTexts) (node : Value) (all done : List PathEdit) (reached : Value) : Prop where
  named : forall edit, edit ∈ done -> forall segment, edit.1.head? = some segment ->
    forall step, Makes segment step -> (reached.child step).isSome = true
  kept : forall step, (forall kind, Wants all kind -> kind = stepKind step) ->
    (node.child step).isSome = true -> (reached.child step).isSome = true
  origin : forall step child, reached.child step = some child ->
    Exists fun first => Origin node all step first /\ child = applyEdits texts (editsFor step done) first
  nodup : reached.NodupNames

section Progressing

variable {texts} {node reached : Value} {all done : List PathEdit}

theorem progress_start (nodup : node.NodupNames) : Progress texts node all [] node where
  named := fun _ impossible => by cases impossible
  kept := fun _ _ present => present
  origin := fun _ child present => ⟨child, Or.inl present, rfl⟩
  nodup := nodup

theorem applyEdits_editsFor_snoc (edit : PathEdit) (step : ChildStep) (first : Value) :
    applyEdits texts (editsFor step (done ++ [edit])) first =
      childEdit texts edit step (applyEdits texts (editsFor step done) first) := by
  rw [editsFor, List.filterMap_append, applyEdits_append]
  exact applyEdits_editsFor_cons edit [] step _

theorem nodup_insertEntry {name : Text} {value : Value} {entries : List (Text × Value)}
    (nodup : (entries.map Prod.fst).Nodup) (missing : (Value.object entries).get name = none) :
    ((insertEntry name value entries).map Prod.fst).Nodup := by
  have absent : name ∉ entries.map Prod.fst := by
    intro inside
    rcases List.mem_map.mp inside with ⟨entry, member, same⟩
    rw [← same, Value.get_of_mem nodup member] at missing
    cases missing
  have same : ((insertEntry name value entries).map Prod.fst).Perm (name :: entries.map Prod.fst) := by
    clear nodup missing absent
    induction entries with
    | nil => exact List.Perm.refl _
    | cons entry entries induction =>
        rw [insertEntry]
        split
        · exact List.Perm.refl _
        · exact (induction.cons entry.1).trans (List.Perm.swap _ _ _)
  exact same.nodup_iff.mpr (List.nodup_cons.mpr ⟨absent, nodup⟩)

theorem nodupNames_set {segment : PathSegment} (nodup : reached.NodupNames) (value : Value) (rest : List PathSegment) :
    (setStructuredPath texts value (segment :: rest) reached).NodupNames := by
  cases segment with
  | index position =>
      intro entries impossible
      cases impossible
  | wildcard =>
      rw [set_eq_editChildren nodup (fun step impossible => by cases step <;> cases impossible)]
      exact nodup.editChildren _
  | key name =>
      have names : (((reached.asObject.getD []).map Prod.fst)).Nodup := by
        cases isObject : reached.asObject with
        | none => exact List.nodup_nil
        | some entries => exact nodup entries (asObject_eq_some.mp isObject)
      rw [setStructuredPath]
      dsimp only
      split
      · next child found =>
          intro entries same
          cases same
          rw [setEntry_eq_map names found, List.map_map]
          exact names
      · next missing =>
          intro entries same
          cases same
          exact nodup_insertEntry names missing

/-- A wildcard edits the children that are there. -/
theorem progress_wildcard (progress : Progress texts node all done reached) (rest : List PathSegment) (value : Value) :
    Progress texts node all (done ++ [(.wildcard :: rest, value)])
      (setStructuredPath texts value (.wildcard :: rest) reached) where
  named := by
    intro edit member segment head step makes
    rw [child_wildcard_set, Option.isSome_map]
    rcases List.mem_append.mp member with before | here
    · exact progress.named edit before segment head step makes
    · rw [List.mem_singleton.mp here] at head
      cases head
      cases makes
  kept := by
    intro step kind present
    rw [child_wildcard_set, Option.isSome_map]
    exact progress.kept step kind present
  origin := by
    intro step child present
    rw [child_wildcard_set] at present
    rcases Option.map_eq_some_iff.mp present with ⟨before, isBefore, same⟩
    rcases progress.origin step before isBefore with ⟨first, origin, whole⟩
    refine ⟨first, origin, ?_⟩
    rw [applyEdits_editsFor_snoc, childEdit_of_eq _ _ _ (Or.inl rfl), ← whole, same]
  nodup := nodupNames_set progress.nodup value rest

theorem segmentKind_of_makes {segment : PathSegment} {step : ChildStep} (makes : Makes segment step) :
    segmentKind segment = some (stepKind step) := by
  cases segment <;> cases step <;> first | rfl | cases makes

/-- An array with an element has the ones before it. -/
theorem child_of_makes {named step : ChildStep} (makes : Makes (stepSegment named) step)
    (present : (reached.child named).isSome = true) : (reached.child step).isSome = true := by
  cases named with
  | key name =>
      cases step with
      | key other =>
          rw [show other = name from makes]
          exact present
      | index other => cases makes
  | index position =>
      cases step with
      | key other => cases makes
      | index other =>
          cases reached with
          | array elements =>
              rw [Value.child, Option.isSome_iff_ne_none, Ne, List.getElem?_eq_none_iff, Nat.not_le] at present ⊢
              exact Nat.lt_of_le_of_lt makes present
          | _ => cases present

/-- A child which is not there when an edit makes it was not there before, and no edit went to it. -/
theorem untouched_of_missing (progress : Progress texts node all done reached) {named step : ChildStep}
    {rest : List PathSegment} {value : Value} (kinds : forall kind, Wants all kind -> kind = stepKind named)
    (foreseen : forall earlier, earlier ∈ done -> Foreseen node earlier (stepSegment named :: rest, value))
    (makes : Makes (stepSegment named) step) (missing : reached.child step = none) :
    node.child step = none /\ editsFor step done = [] := by
  have sameKind : stepKind named = stepKind step := by
    have kind := segmentKind_of_makes makes
    rw [segmentKind_stepSegment] at kind
    exact Option.some.inj kind
  constructor
  · cases present : node.child step with
    | none => rfl
    | some child =>
        have still := progress.kept step (fun kind wants => (kinds kind wants).trans sameKind)
          (by rw [present, Option.isSome_some])
        rw [missing] at still
        cases still
  · rw [editsFor, List.filterMap_eq_nil_iff]
    rintro ⟨path, other⟩ member
    cases path with
    | nil => rfl
    | cons segment behind =>
        rw [editFor, if_neg]
        rintro (wildcard | isStep)
        · have before := foreseen _ member (congrArg some wildcard) named rfl
          have still := child_of_makes makes (progress.kept named kinds before)
          rw [missing] at still
          cases still
        · have made := progress.named _ member segment rfl step (by rw [isStep]; exact makes_self step)
          rw [missing] at made
          cases made

/-- An edit which names a child edits it, or makes it where no edit was before. -/
theorem progress_step (progress : Progress texts node all done reached) {named : ChildStep} {rest : List PathSegment}
    {value : Value} (member : (stepSegment named :: rest, value) ∈ all)
    (within : forall edit, edit ∈ done -> edit ∈ all)
    (kinds : forall kind, Wants all kind -> kind = stepKind named)
    (foreseen : forall earlier, earlier ∈ done -> Foreseen node earlier (stepSegment named :: rest, value)) :
    Progress texts node all (done ++ [(stepSegment named :: rest, value)])
      (setStructuredPath texts value (stepSegment named :: rest) reached) where
  named := by
    intro edit inside segment head step makes
    rw [child_step_edit]
    by_cases same : step = named
    · rw [if_pos same, Option.isSome_some]
    · rw [if_neg same]
      by_cases made : Makes (stepSegment named) step
      · rw [if_pos made, Option.isSome_some]
      · rcases List.mem_append.mp inside with before | here
        · have kind : stepKind step = stepKind named := by
            apply kinds
            refine ⟨edit, within edit before, ?_⟩
            rw [head, Option.bind_some, segmentKind_of_makes makes]
          rw [if_neg made, if_pos kind]
          exact progress.named edit before segment head step makes
        · rw [List.mem_singleton.mp here] at head
          cases head
          exact absurd makes made
  kept := by
    intro step kind present
    have own : stepKind named = stepKind step :=
      kind _ ⟨_, member, segmentKind_stepSegment named⟩
    rw [child_step_edit]
    by_cases same : step = named
    · rw [if_pos same, Option.isSome_some]
    · rw [if_neg same]
      by_cases made : Makes (stepSegment named) step
      · rw [if_pos made, Option.isSome_some]
      · rw [if_neg made, if_pos own.symm]
        exact progress.kept step kind present
  origin := by
    intro step child present
    have made (makes : Makes (stepSegment named) step) : Exists fun first => Origin node all step first /\
        childOrInitial step rest reached = applyEdits texts (editsFor step done) first := by
      cases before : reached.child step with
      | some child =>
          rw [childOrInitial_of_some before]
          exact progress.origin step child before
      | none =>
          rcases untouched_of_missing progress kinds foreseen makes before with ⟨new, untouched⟩
          rw [childOrInitial_of_none before, untouched]
          exact ⟨_, Or.inr ⟨new, ⟨_, member, _, rfl, makes⟩, _, rfl⟩, rfl⟩
    rw [child_step_edit] at present
    by_cases same : step = named
    · rw [if_pos same] at present
      subst same
      rcases made (makes_self step) with ⟨first, origin, whole⟩
      refine ⟨first, origin, ?_⟩
      rw [applyEdits_editsFor_snoc, childEdit_of_eq _ _ _ (Or.inr rfl), ← whole]
      exact (Option.some.inj present).symm
    · have elsewhere (first : Value) : childEdit texts (stepSegment named :: rest, value) step first = first := by
        apply childEdit_of_ne
        rintro (wildcard | isStep)
        · cases named <;> cases wildcard
        · exact same (stepSegment_injective isStep).symm
      rw [if_neg same] at present
      by_cases makes : Makes (stepSegment named) step
      · rw [if_pos makes] at present
        rcases made makes with ⟨first, origin, whole⟩
        refine ⟨first, origin, ?_⟩
        rw [applyEdits_editsFor_snoc, elsewhere, ← whole]
        exact (Option.some.inj present).symm
      · rw [if_neg makes] at present
        split at present
        · rcases progress.origin step child present with ⟨first, origin, whole⟩
          refine ⟨first, origin, ?_⟩
          rw [applyEdits_editsFor_snoc, elsewhere]
          exact whole
        · cases present
  nodup := nodupNames_set progress.nodup value rest

/-- Edits that are all for one kind of value make progress to their end. -/
theorem progress_all (paths : forall edit, edit ∈ all -> Not (edit.1 = []))
    (kinds : forall first second, Wants all first -> Wants all second -> first = second)
    (foreseen : all.Pairwise (Foreseen node)) : forall (ahead done : List PathEdit) (reached : Value),
      all = done ++ ahead -> Progress texts node all done reached ->
        Progress texts node all all (applyEdits texts ahead reached) := by
  intro ahead
  induction ahead with
  | nil =>
      intro done reached whole progress
      rw [List.append_nil] at whole
      rw [whole] at progress ⊢
      exact progress
  | cons edit ahead induction =>
      intro done reached whole progress
      have further : all = (done ++ [edit]) ++ ahead := by rw [whole, List.append_assoc, List.singleton_append]
      have member : edit ∈ all := by
        rw [whole]
        exact List.mem_append_right done List.mem_cons_self
      have within (other : PathEdit) (before : other ∈ done) : other ∈ all := by
        rw [whole]
        exact List.mem_append_left _ before
      have before (earlier : PathEdit) (inside : earlier ∈ done) : Foreseen node earlier edit := by
        rw [whole] at foreseen
        exact (List.pairwise_append.mp foreseen).2.2 earlier inside edit List.mem_cons_self
      rw [applyEdits_cons]
      apply induction (done ++ [edit]) _ further
      rcases edit with ⟨path, value⟩
      cases path with
      | nil => exact absurd rfl (paths _ member)
      | cons segment rest =>
          have own {step : ChildStep} (isStep : segment = stepSegment step) (kind : Kind) (wants : Wants all kind) :
              kind = stepKind step := by
            apply kinds kind _ wants
            refine ⟨_, member, ?_⟩
            rw [isStep]
            exact segmentKind_stepSegment step
          cases segment with
          | wildcard => exact progress_wildcard progress rest value
          | key name =>
              exact @progress_step texts node reached all done progress (.key name) rest value member within (own rfl)
                before
          | index position =>
              exact @progress_step texts node reached all done progress (.index position) rest value member within
                (own rfl) before

end Progressing

/-! ## The second time -/

section Again

variable {texts} {edits : List PathEdit} {node : Value}

/-- What is foreseen depends on the children of a value alone. -/
theorem foreseenAt_congr {other : Value} (same : forall step, node.child step = other.child step)
    {place : List ChildStep} (foreseen : ForeseenAt place edits node) : ForeseenAt place edits other := by
  cases place with
  | nil =>
      refine foreseen.imp (fun before wildcard step head => ?_)
      rw [← same]
      exact before wildcard step head
  | cons step place =>
      rw [ForeseenAt] at foreseen ⊢
      rw [← same]
      exact foreseen

theorem distinctNames_initialValue (next : Option PathSegment) : (initialValue next).DistinctNames := by
  intro place node found entries same
  cases place with
  | nil =>
      cases found
      unfold initialValue at same
      split at same
      · cases same
      · rw [← Value.object.inj same]
        exact List.nodup_nil
  | cons step place =>
      rw [lookup_initialValue] at found
      cases found

theorem Origin.distinctNames {step : ChildStep} {first : Value} (distinct : node.DistinctNames)
    (origin : Origin node edits step first) : first.DistinctNames := by
  rcases origin with present | ⟨_, _, next, isInitial⟩
  · exact distinct.below present
  · rw [isInitial]
    exact distinctNames_initialValue next

/-- What is foreseen for a value is so for what its children began as. -/
theorem Origin.foreseen {step : ChildStep} {first : Value} (foreseen : AllForeseen edits node)
    (origin : Origin node edits step first) : AllForeseen (editsFor step edits) first := by
  intro place
  have there := foreseen (step :: place)
  rw [ForeseenAt] at there
  rcases origin with present | ⟨missing, made, next, isInitial⟩
  · rw [present, Option.isSome_some] at there
    exact there (Or.inl rfl)
  · have below := there (Or.inr made)
    rw [missing, Option.getD_none] at below
    apply foreseenAt_congr _ below
    intro other
    rw [isInitial, child_initialValue]
    cases other <;> rfl

theorem length_of_mem_editsFor {step : ChildStep} {bound : Nat}
    (short : forall edit, edit ∈ edits -> edit.1.length <= bound + 1) :
    forall edit, edit ∈ editsFor step edits -> edit.1.length <= bound := by
  intro edit member
  rcases List.mem_filterMap.mp member with ⟨⟨path, value⟩, inside, isEdit⟩
  cases path with
  | nil => cases isEdit
  | cons segment rest =>
      rw [editFor] at isEdit
      split at isEdit
      · cases isEdit
        exact Nat.le_of_succ_le_succ (short _ inside)
      · cases isEdit

theorem AllScalar.editsFor (scalar : AllScalar edits) (step : ChildStep) : AllScalar (editsFor step edits) := by
  intro edit member
  rcases List.mem_filterMap.mp member with ⟨⟨path, value⟩, inside, isEdit⟩
  cases path with
  | nil => cases isEdit
  | cons segment rest =>
      rw [editFor] at isEdit
      split at isEdit
      · cases isEdit
        have known := scalar _ inside
        exact known
      · cases isEdit

theorem exists_length_bound (edits : List PathEdit) :
    Exists fun bound => forall edit, edit ∈ edits -> edit.1.length <= bound := by
  induction edits with
  | nil => exact ⟨0, fun _ impossible => by cases impossible⟩
  | cons edit edits induction =>
      rcases induction with ⟨bound, short⟩
      refine ⟨max edit.1.length bound, List.forall_mem_cons.mpr ⟨Nat.le_max_left _ _, ?_⟩⟩
      exact fun other member => Nat.le_trans (short other member) (Nat.le_max_right _ _)

/-- By the length of the paths: either nothing is left of the value, or each child has its edits made
again on what it became by them. -/
theorem applyEdits_again (bound : Nat) : forall {edits : List PathEdit} {node : Value},
    (forall edit, edit ∈ edits -> edit.1.length <= bound) -> AllScalar edits -> node.DistinctNames ->
      AllForeseen edits node -> applyEdits texts edits (applyEdits texts edits node) = applyEdits texts edits node := by
  induction bound with
  | zero =>
      intro edits node short scalar distinct foreseen
      cases edits with
      | nil => rfl
      | cons edit edits =>
          apply constant_of_whole scalar
          exact ⟨edit, List.mem_cons_self, List.eq_nil_of_length_eq_zero
            (Nat.le_zero.mp (short edit List.mem_cons_self))⟩
  | succ bound induction =>
      intro edits node short scalar distinct foreseen
      by_cases whole : Exists fun edit => edit ∈ edits /\ edit.1 = []
      · exact constant_of_whole scalar whole _ _
      · by_cases both : Wants edits .object /\ Wants edits .array
        · exact constant_of_kinds scalar both.1 both.2 _ _
        · have paths (edit : PathEdit) (member : edit ∈ edits) : Not (edit.1 = []) :=
            fun empty => whole ⟨edit, member, empty⟩
          have kinds (first second : Kind) (one : Wants edits first) (other : Wants edits second) : first = second := by
            cases first with
            | object =>
                cases second with
                | object => rfl
                | array => exact absurd ⟨one, other⟩ both
            | array =>
                cases second with
                | object => exact absurd ⟨other, one⟩ both
                | array => rfl
          have progress : Progress texts node edits edits (applyEdits texts edits node) :=
            progress_all paths kinds (foreseen []) edits [] node rfl (progress_start distinct.here)
          have present (edit : PathEdit) (member : edit ∈ edits) (step : ChildStep)
              (head : edit.1.head? = some (stepSegment step)) :
              ((applyEdits texts edits node).child step).isSome = true :=
            progress.named edit member _ head step (makes_self step)
          rw [applyEdits_eq_editChildren paths progress.nodup present]
          calc
            (applyEdits texts edits node).editChildren (fun step child => applyEdits texts (editsFor step edits) child)
              = (applyEdits texts edits node).editChildren (fun _ child => child) := by
                apply Value.editChildren_congr progress.nodup
                intro step child isChild
                rcases progress.origin step child isChild with ⟨first, origin, isEdited⟩
                rw [isEdited]
                exact induction (length_of_mem_editsFor short) (scalar.editsFor step) (origin.distinctNames distinct)
                  (origin.foreseen foreseen)
            _ = applyEdits texts edits node := Value.editChildren_id _

end Again

/-- A map whose wildcards are not followed by an entry that makes a child for them edits a document
once. -/
theorem structured_edits_idempotent (texts : ValueTexts) {find : List (Text × Value)} {document : Value}
    (scalar : forall entry, entry ∈ find -> isObject entry.2 = false) (distinct : document.DistinctNames)
    (foreseen : AllForeseen (parsedEdits find) document) :
    applyStructuredReplacements texts (applyStructuredReplacements texts document find) find =
      applyStructuredReplacements texts document find := by
  have scalars : AllScalar (parsedEdits find) := List.forall_mem_map.mpr scalar
  rcases exists_length_bound (parsedEdits find) with ⟨bound, short⟩
  rw [applyStructuredReplacements_eq_edits, applyStructuredReplacements_eq_edits]
  exact applyEdits_again bound short scalars distinct foreseen

/-- Without wildcards everything is foreseen. -/
theorem allForeseen_of_no_wildcard {edits : List PathEdit}
    (plain : forall edit, edit ∈ edits -> .wildcard ∉ edit.1) (node : Value) : AllForeseen edits node := by
  intro place
  induction place generalizing edits node with
  | nil =>
      apply List.pairwise_of_forall_mem_list
      intro earlier member later _ wildcard
      exact absurd (List.mem_of_mem_head? wildcard) (plain earlier member)
  | cons step place induction =>
      intro _
      apply induction
      intro edit member
      rcases List.mem_filterMap.mp member with ⟨⟨path, value⟩, inside, isEdit⟩
      cases path with
      | nil => cases isEdit
      | cons segment rest =>
          rw [editFor] at isEdit
          split at isEdit
          · cases isEdit
            exact fun again => plain _ inside (List.mem_cons_of_mem segment again)
          · cases isEdit

/-- A wildcard for every server, and a server of its own. -/
def sampleFind : List (Text × Value) :=
  [("*.c".toList, .bool true), ("a.b".toList, .bool false)]

theorem parsedEdits_sampleFind : parsedEdits sampleFind =
    [([.wildcard, .key ['c']], .bool true), ([.key ['a'], .key ['b']], .bool false)] := by
  have wildcardPath : parsePath "*.c".toList = [.wildcard, .key ['c']] := by decide +kernel
  have plainPath : parsePath "a.b".toList = [.key ['a'], .key ['b']] := by decide +kernel
  rw [parsedEdits, sampleFind, List.map_cons, List.map_singleton, wildcardPath, plainPath]

/-- The server is there before. -/
theorem structured_edits_idempotent_sample :
    let document : Value := .object [(['a'], .object [])]
    applyStructuredReplacements someTexts (applyStructuredReplacements someTexts document sampleFind) sampleFind =
      applyStructuredReplacements someTexts document sampleFind := by
  intro document
  have scalar : forall entry, entry ∈ sampleFind -> isObject entry.2 = false := by
    intro entry member
    rcases List.mem_cons.mp member with same | later
    · rw [same]
      rfl
    · rw [List.mem_singleton.mp later]
      rfl
  have distinct : document.DistinctNames := by
    intro place node found entries same
    cases place with
    | nil =>
        cases found
        have names : [(['a'], Value.object [])] = entries := Value.object.inj same
        rw [← names]
        exact List.nodup_cons.mpr ⟨List.not_mem_nil, List.nodup_nil⟩
    | cons step place =>
        rcases Option.bind_eq_some_iff.mp found with ⟨child, isChild, below⟩
        have isEmpty : child = initialValue none := by
          cases step with
          | index position => cases isChild
          | key name =>
              rcases Option.map_eq_some_iff.mp isChild with ⟨entry, isEntry, isValue⟩
              rw [← isValue, List.mem_singleton.mp (List.mem_of_find?_eq_some isEntry)]
              rfl
        rw [isEmpty] at below
        exact distinctNames_initialValue none place node below entries same
  have foreseen : AllForeseen (parsedEdits sampleFind) document := by
    rw [parsedEdits_sampleFind]
    intro place
    cases place with
    | nil =>
        refine List.Pairwise.cons ?_ (List.pairwise_singleton _ _)
        intro later member _ step head
        rw [List.mem_singleton.mp member] at head
        cases step with
        | key name =>
            cases head
            rfl
        | index position => cases head
    | cons step place =>
        intro _
        apply allForeseen_of_no_wildcard
        intro edit member
        rcases List.mem_filterMap.mp member with ⟨whole, inside, isEdit⟩
        rcases List.mem_cons.mp inside with isFirst | isSecond
        · rw [isFirst, editFor, if_pos (Or.inl rfl)] at isEdit
          cases isEdit
          decide
        · rw [List.mem_singleton.mp isSecond, editFor] at isEdit
          split at isEdit
          · cases isEdit
            decide
          · cases isEdit
  exact structured_edits_idempotent someTexts scalar distinct foreseen

/-- A child that is made behind a wildcard is edited by it only the next time. -/
theorem wildcard_misses_made_child :
    let document : Value := .object []
    Not (applyStructuredReplacements someTexts (applyStructuredReplacements someTexts document sampleFind) sampleFind =
      applyStructuredReplacements someTexts document sampleFind) := by
  intro document same
  rw [applyStructuredReplacements_eq_edits, applyStructuredReplacements_eq_edits, parsedEdits_sampleFind] at same
  have found := congrArg (Value.lookup [.key ['a'], .key ['c']]) same
  cases found

end Runtime
end Agapornis
