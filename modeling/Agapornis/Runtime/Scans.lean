import Mathlib.Data.List.Dedup
import Agapornis.Runtime.Supervisor

namespace Agapornis
namespace Runtime

open Foundations Agapornis.Core

/-!
# One scan over all containers

A scan ends at the first container that cannot be inspected, or whose files
are due and cannot be measured.  The containers before it are looked after,
those behind it are not.
-/

namespace Monitor

variable (diskEvery : Nat) (visits : Text -> Visit)

/-- The files of a container are to be measured in this scan. -/
def Due (monitor : Monitor) (id : Text) : Prop :=
  monitor.dueAt id (visits id).checkedAt <= (visits id).checkedAt

/-- The visit of a container fails: it cannot be inspected, or its files are due and cannot be
measured. -/
def Fails (monitor : Monitor) (id : Text) : Prop :=
  (Exists fun failure => (visits id).inspect = .error failure) \/
    (monitor.Due visits id /\ Exists fun failure => (visits id).diskForce = .error failure)

/-- What a scan that began with one monitor is to have done for a container when it ends with
another: observed it, and measured and stopped it where that is due. -/
def LookedAfter (began ended : Monitor) (id : Text) : Prop :=
  forall inspect, (visits id).inspect = .ok inspect ->
    let seen := readInspect (visits id).observedAt inspect
    .observe id seen ∈ ended.calls /\
      ended.observations.lookup id = (began.observe id seen).observations.lookup id /\
      (began.Due visits id -> .diskForce id ∈ ended.calls /\
        forall usage limit, (visits id).diskForce = .ok (usage, limit) -> 0 < limit -> limit < usage ->
          .docker ["stop".toList, "--time".toList, "5".toList, id] ∈ ended.calls /\
            ended.protection.statuses.lookup id = some "disk-limit-exceeded".toList)

/-! ## What a visit leaves alone -/

/-- What is known of one container. -/
def rows (monitor : Monitor) (id : Text) : Option Observation × Option Nat × Option Nat × Option Text :=
  (monitor.observations.lookup id, monitor.diskDue.lookup id,
    monitor.protection.recovery.lookup id, monitor.protection.statuses.lookup id)

variable {diskEvery visits}
variable {id other : Text} {monitor : Monitor}

theorem observe_rows (different : other ≠ id) (seen : Seen) :
    (monitor.observe id seen).rows other = monitor.rows other := by
  rw [observe]
  split
  next recovering protection checked =>
    have kept : protection.statuses = monitor.protection.statuses /\
        protection.recovery.lookup other = monitor.protection.recovery.lookup other := by
      rw [Protection.inManualRecovery, Prod.mk.injEq] at checked
      rw [<- checked.2]
      split
      · exact ⟨rfl, rfl⟩
      · exact ⟨rfl, Table.lookup_erase_of_ne different⟩
    dsimp only
    split
    · simp [rows, setObservation, record, kept, AList.lookup_insert_ne different]
    · split
      · simp [rows, quarantine, setObservation, record, Protection.mark, kept,
          AList.lookup_insert_ne different]
      · simp [rows, setObservation, record, kept, AList.lookup_insert_ne different]

theorem checkDisk_rows (different : other ≠ id) (visit : Visit) :
    (monitor.checkDisk diskEvery id visit).1.rows other = monitor.rows other := by
  rw [checkDisk]
  split
  · dsimp only
    split
    · simp [rows, setDue, record, AList.lookup_insert_ne different]
    · split
      · simp [rows, stopForDisk, setDue, record, Protection.mark, AList.lookup_insert_ne different]
      · simp [rows, setDue, record, Protection.clearDisk_statuses different,
          AList.lookup_insert_ne different]
  · simp [rows, setDue, AList.lookup_insert_ne different]

/-- The visit of one container leaves what is known of the others alone. -/
theorem visitOne_rows (different : other ≠ id) (visit : Visit) :
    (monitor.visitOne diskEvery id visit).1.rows other = monitor.rows other := by
  rw [visitOne]
  cases visit.inspect with
  | error failure => rfl
  | ok inspect =>
      dsimp only
      rw [checkDisk_rows different, observe_rows different]
      split <;> rfl

theorem forget_rows (different : other ≠ id) : (monitor.forget id).rows other = monitor.rows other := by
  simp [rows, forget, record, Protection.remove, AList.lookup_erase_ne different]

/-! ## The calls of a visit -/

/-- Calls are added behind those made before, and none of them observes a container in `spared`. -/
def Adds (spared : Text -> Prop) (before after : Monitor) : Prop :=
  Exists fun made => after.calls = before.calls ++ made /\
    forall id seen, spared id -> .observe id seen ∉ made

theorem Adds.refl (spared : Text -> Prop) (monitor : Monitor) : Adds spared monitor monitor :=
  ⟨[], (List.append_nil monitor.calls).symm, fun _ _ _ impossible => nomatch impossible⟩

theorem Adds.trans {spared : Text -> Prop} {first second third : Monitor}
    (one : Adds spared first second) (next : Adds spared second third) : Adds spared first third := by
  rcases one with ⟨early, before, none⟩
  rcases next with ⟨late, after, no⟩
  refine ⟨early ++ late, by rw [after, before, List.append_assoc], ?_⟩
  intro id seen isSpared member
  rcases List.mem_append.mp member with inEarly | inLate
  · exact none id seen isSpared inEarly
  · exact no id seen isSpared inLate

theorem Adds.mono {spared fewer : Text -> Prop} {before after : Monitor}
    (less : forall id, fewer id -> spared id) (adds : Adds spared before after) :
    Adds fewer before after := by
  rcases adds with ⟨made, whole, none⟩
  exact ⟨made, whole, fun id seen isFewer => none id seen (less id isFewer)⟩

theorem Adds.mem {spared : Text -> Prop} {before after : Monitor} (adds : Adds spared before after)
    {call : MonitorCall} (made : call ∈ before.calls) : call ∈ after.calls := by
  rcases adds with ⟨added, whole, _⟩
  rw [whole]
  exact List.mem_append_left added made

theorem Adds.not_mem {spared : Text -> Prop} {before after : Monitor} (adds : Adds spared before after)
    {id : Text} {seen : Seen} (isSpared : spared id) (none : .observe id seen ∉ before.calls) :
    .observe id seen ∉ after.calls := by
  rcases adds with ⟨added, whole, no⟩
  rw [whole, List.mem_append, not_or]
  exact ⟨none, no id seen isSpared⟩

theorem observe_adds (seen : Seen) : Adds (· ≠ id) monitor (monitor.observe id seen) /\
    .observe id seen ∈ (monitor.observe id seen).calls := by
  rw [observe]
  dsimp only
  split
  · refine ⟨⟨[.observe id seen], rfl, ?_⟩, List.mem_append_right _ List.mem_cons_self⟩
    intro other seen different member
    cases List.mem_singleton.mp member
    exact different rfl
  · split
    · refine ⟨⟨[.observe id seen, .docker ["update".toList, "--restart".toList, "no".toList, id], .stop id,
        .publish id crashLoopLine], ?_, ?_⟩, ?_⟩
      · simp [quarantine, setObservation, record]
      · intro other seen different member
        simp only [List.mem_cons, List.not_mem_nil, or_false, reduceCtorEq] at member
        cases member
        exact different rfl
      · simp [quarantine, setObservation, record]
    · refine ⟨⟨[.observe id seen], rfl, ?_⟩, List.mem_append_right _ List.mem_cons_self⟩
      intro other seen different member
      cases List.mem_singleton.mp member
      exact different rfl

theorem checkDisk_adds (visit : Visit) (spared : Text -> Prop) :
    Adds spared monitor (monitor.checkDisk diskEvery id visit).1 := by
  rw [checkDisk]
  split
  · dsimp only
    split
    · refine ⟨[.diskForce id], rfl, ?_⟩
      intro other seen _ member
      cases List.mem_singleton.mp member
    · next usage limit measured =>
        split
        · refine ⟨[.diskForce id, .docker ["update".toList, "--restart".toList, "no".toList, id],
            .docker ["stop".toList, "--time".toList, "5".toList, id],
            .publish id (diskLimitLine usage limit)], ?_, ?_⟩
          · simp [stopForDisk, setDue, record]
          · intro other seen _ member
            simp [reduceCtorEq] at member
        · refine ⟨[.diskForce id], rfl, ?_⟩
          intro other seen _ member
          cases List.mem_singleton.mp member
  · exact ⟨[], (List.append_nil monitor.calls).symm, fun _ _ _ impossible => absurd impossible List.not_mem_nil⟩

/-- The visit of one container observes no other one. -/
theorem visitOne_adds (visit : Visit) :
    Adds (· ≠ id) monitor (monitor.visitOne diskEvery id visit).1 := by
  rw [visitOne]
  have asked : Adds (· ≠ id) monitor (monitor.record [.inspect id]) := by
    refine ⟨[.inspect id], rfl, ?_⟩
    intro other seen _ member
    cases List.mem_singleton.mp member
  cases visit.inspect with
  | error failure => exact asked
  | ok inspect =>
      dsimp only
      refine Adds.trans (asked.trans ?_) (checkDisk_adds visit _)
      refine Adds.trans ?_ (observe_adds _).1
      split
      · refine ⟨[.wakeReader id], rfl, ?_⟩
        intro other seen _ member
        cases List.mem_singleton.mp member
      · exact Adds.refl _ _

/-! ## What a visit does for its container -/

theorem observe_diskDue (id : Text) (seen : Seen) : (monitor.observe id seen).diskDue = monitor.diskDue := by
  rw [observe]
  dsimp only
  split
  · rfl
  · split <;> rfl

/-- What an observation leaves in the entry of its container depends on nothing else than what was
known of it. -/
theorem observe_lookup_congr {first second : Monitor} (same : first.rows id = second.rows id)
    (seen : Seen) : (first.observe id seen).observations.lookup id =
      (second.observe id seen).observations.lookup id := by
  rw [rows, rows, Prod.mk.injEq, Prod.mk.injEq, Prod.mk.injEq] at same
  have entry : first.entry id seen = second.entry id seen := by rw [entry, entry, same.1]
  have window : first.protection.recovering id seen.now = second.protection.recovering id seen.now := by
    rw [Protection.recovering, Protection.recovering, same.2.2.1]
  cases recovering : second.protection.recovering id seen.now with
  | true =>
      rw [observe_recovering (window.trans recovering), observe_recovering recovering]
  | false =>
      rw [observe_entry (window.trans recovering), observe_entry recovering, entry]

theorem due_congr {first second : Monitor} (same : first.rows id = second.rows id) :
    first.Due visits id <-> second.Due visits id := by
  rw [rows, rows, Prod.mk.injEq, Prod.mk.injEq] at same
  rw [Due, Due, dueAt, dueAt, same.2.1]

theorem fails_congr {first second : Monitor} (same : first.rows id = second.rows id) :
    first.Fails visits id <-> second.Fails visits id := by
  rw [Fails, Fails, due_congr same]

theorem checkDisk_fails (monitor : Monitor) (visit : Visit) :
    (Exists fun failure => (monitor.checkDisk diskEvery id visit).2 = .error failure) <->
      monitor.dueAt id visit.checkedAt <= visit.checkedAt /\
        Exists fun failure => visit.diskForce = .error failure := by
  rw [checkDisk]
  split
  · next due =>
      rw [and_iff_right due]
      cases visit.diskForce with
      | error failure => exact ⟨fun _ => ⟨failure, rfl⟩, fun _ => ⟨failure, rfl⟩⟩
      | ok measured =>
          dsimp only
          split <;> simp
  · next later => simp [later]

theorem visitOne_fails (monitor : Monitor) (id : Text) :
    (Exists fun failure => (monitor.visitOne diskEvery id (visits id)).2 = .error failure) <->
      monitor.Fails visits id := by
  rw [visitOne, Fails]
  cases (visits id).inspect with
  | error failure => exact ⟨fun _ => Or.inl ⟨failure, rfl⟩, fun _ => ⟨failure, rfl⟩⟩
  | ok inspect =>
      dsimp only
      rw [checkDisk_fails, dueAt, observe_diskDue, or_iff_right (by simp)]
      split <;> exact Iff.rfl

/-- A check of the disk that does not fail measures and stops as it is to. -/
theorem checkDisk_does {monitor : Monitor} {visit : Visit}
    (due : monitor.dueAt id visit.checkedAt <= visit.checkedAt) :
    .diskForce id ∈ (monitor.checkDisk diskEvery id visit).1.calls /\
      forall usage limit, visit.diskForce = .ok (usage, limit) -> 0 < limit -> limit < usage ->
        .docker ["stop".toList, "--time".toList, "5".toList, id] ∈
            (monitor.checkDisk diskEvery id visit).1.calls /\
          (monitor.checkDisk diskEvery id visit).1.protection.statuses.lookup id =
            some "disk-limit-exceeded".toList := by
  rw [checkDisk, if_pos due]
  cases visit.diskForce with
  | error failure => exact ⟨by simp [record], fun _ _ impossible => nomatch impossible⟩
  | ok measured =>
      dsimp only
      split
      · refine ⟨by simp [stopForDisk, setDue, record], ?_⟩
        intro usage limit _ _ _
        constructor
        · simp [stopForDisk, setDue, record]
        · simp [stopForDisk, setDue, record, Protection.mark]
      · next within =>
          refine ⟨by simp [setDue, record], ?_⟩
          intro usage limit same some more
          cases same
          exact absurd (by simp [some, more]) within

theorem checkDisk_observations (visit : Visit) :
    (monitor.checkDisk diskEvery id visit).1.observations = monitor.observations := by
  rw [checkDisk]
  split
  · dsimp only
    split
    · rfl
    · split <;> rfl
  · rfl

/-- A visit looks after its container as far as it can. -/
theorem visitOne_looks (monitor : Monitor) (id : Text) :
    LookedAfter visits monitor (monitor.visitOne diskEvery id (visits id)).1 id := by
  intro inspect inspected seen
  rw [visitOne, inspected]
  dsimp only
  generalize woken : (if (readInspect (visits id).observedAt inspect).running then
    (monitor.record [.inspect id]).record [.wakeReader id] else monitor.record [.inspect id]) = asked
  have same : asked.rows id = monitor.rows id /\ asked.diskDue = monitor.diskDue := by
    rw [<- woken]
    split <;> exact ⟨rfl, rfl⟩
  refine ⟨?_, ?_, ?_⟩
  · exact (checkDisk_adds (visits id) (fun _ => True)).mem (observe_adds seen).2
  · rw [checkDisk_observations]
    exact observe_lookup_congr same.1 seen
  · intro due
    apply checkDisk_does
    rw [dueAt, observe_diskDue, same.2]
    exact due

/-! ## What a scan does -/

/-- What was done for a container stays done while others are visited. -/
theorem LookedAfter.later {began ended later : Monitor} (looked : LookedAfter visits began ended id)
    {spared : Text -> Prop} (adds : Adds spared ended later) (same : later.rows id = ended.rows id) :
    LookedAfter visits began later id := by
  intro inspect inspected seen
  rcases looked inspect inspected with ⟨observed, entry, disk⟩
  rw [rows, rows, Prod.mk.injEq, Prod.mk.injEq, Prod.mk.injEq] at same
  refine ⟨adds.mem observed, same.1.trans entry, ?_⟩
  intro due
  rcases disk due with ⟨measured, stopped⟩
  refine ⟨adds.mem measured, ?_⟩
  intro usage limit sizes limited above
  rcases stopped usage limit sizes limited above with ⟨stop, status⟩
  exact ⟨adds.mem stop, same.2.2.2.trans status⟩

theorem LookedAfter.since {began earlier ended : Monitor} (same : began.rows id = earlier.rows id)
    (looked : LookedAfter visits began ended id) : LookedAfter visits earlier ended id := by
  intro inspect inspected seen
  rcases looked inspect inspected with ⟨observed, entry, disk⟩
  refine ⟨observed, entry.trans (observe_lookup_congr same seen), ?_⟩
  intro due
  exact disk ((due_congr same).mpr due)

/-- One visit and the visits behind it. -/
theorem visitAll_cons (monitor : Monitor) (id : Text) (rest : List Text) :
    visitAll diskEvery visits (id :: rest) monitor =
      match (monitor.visitOne diskEvery id (visits id)).2 with
      | .error failure => ((monitor.visitOne diskEvery id (visits id)).1, .error failure)
      | .ok () => visitAll diskEvery visits rest (monitor.visitOne diskEvery id (visits id)).1 := by
  rw [visitAll]
  split
  · next visited failure same => rw [same]
  · next visited same => rw [same]

theorem visitAll_fails {id : Text} (fails : monitor.Fails visits id) (rest : List Text) :
    (visitAll diskEvery visits (id :: rest) monitor).1 = (monitor.visitOne diskEvery id (visits id)).1 := by
  rcases (visitOne_fails monitor id).mpr fails with ⟨failure, failed⟩
  rw [visitAll_cons, failed]

theorem visitAll_goes_on {id : Text} (works : Not (monitor.Fails visits id)) (rest : List Text) :
    visitAll diskEvery visits (id :: rest) monitor =
      visitAll diskEvery visits rest (monitor.visitOne diskEvery id (visits id)).1 := by
  rw [visitAll_cons]
  cases ended : (monitor.visitOne diskEvery id (visits id)).2 with
  | error failure => exact absurd ((visitOne_fails monitor id).mp ⟨failure, ended⟩) works
  | ok unused => rfl

theorem visitAll_rows {order : List Text} : forall {monitor : Monitor}, other ∉ order ->
    (visitAll diskEvery visits order monitor).1.rows other = monitor.rows other := by
  induction order with
  | nil => exact fun _ => rfl
  | cons id rest induction =>
      intro monitor outside
      rcases not_or.mp (List.mem_cons.not.mp outside) with ⟨different, behind⟩
      by_cases fails : monitor.Fails visits id
      · rw [visitAll_fails fails]
        exact visitOne_rows different (visits id)
      · rw [visitAll_goes_on fails, induction behind]
        exact visitOne_rows different (visits id)

/-- A sequence of visits observes only containers in it. -/
theorem visitAll_adds {order : List Text} : forall {monitor : Monitor},
    Adds (· ∉ order) monitor (visitAll diskEvery visits order monitor).1 := by
  induction order with
  | nil => exact fun {monitor} => Adds.refl _ monitor
  | cons id rest induction =>
      intro monitor
      have first : Adds (· ∉ id :: rest) monitor (monitor.visitOne diskEvery id (visits id)).1 :=
        (visitOne_adds (visits id)).mono (fun _ outside same => outside (List.mem_cons.mpr (Or.inl same)))
      by_cases fails : monitor.Fails visits id
      · rw [visitAll_fails fails]
        exact first
      · rw [visitAll_goes_on fails]
        exact first.trans (induction.mono (fun _ outside member => outside (List.mem_cons_of_mem id member)))

theorem inspected_of_works {id : Text} (works : Not (monitor.Fails visits id)) :
    Exists fun inspect => (visits id).inspect = .ok inspect := by
  cases inspected : (visits id).inspect with
  | error failure => exact absurd (Or.inl ⟨failure, inspected⟩) works
  | ok inspect => exact ⟨inspect, rfl⟩

/-- A sequence of visits looks after every container whose visit does not fail exactly when all
behind a failing one fail. -/
theorem visitAll_looks_iff {order : List Text} : forall {monitor : Monitor}, order.Nodup ->
    (forall id seen, id ∈ order -> .observe id seen ∉ monitor.calls) ->
    ((forall id, id ∈ order -> Not (monitor.Fails visits id) ->
        LookedAfter visits monitor (visitAll diskEvery visits order monitor).1 id) <->
      order.Pairwise (fun earlier later => monitor.Fails visits earlier -> monitor.Fails visits later)) := by
  induction order with
  | nil => exact fun _ _ => iff_of_true (fun _ impossible => nomatch impossible) List.Pairwise.nil
  | cons id rest induction =>
      intro monitor nodup none
      rcases List.nodup_cons.mp nodup with ⟨outside, distinct⟩
      have others : forall other, other ∈ rest -> other ≠ id := by
        intro other member same
        exact outside (same ▸ member)
      by_cases fails : monitor.Fails visits id
      · rw [visitAll_fails fails, List.pairwise_cons]
        constructor
        · intro looked
          have all : forall other, other ∈ rest -> monitor.Fails visits other := by
            intro other member
            by_contra works
            rcases inspected_of_works works with ⟨inspect, inspected⟩
            have observed := (looked other (List.mem_cons_of_mem id member) works inspect inspected).1
            exact (visitOne_adds (visits id)).not_mem (others other member)
              (none other _ (List.mem_cons_of_mem id member)) observed
          refine ⟨fun other member _ => all other member, ?_⟩
          exact List.pairwise_of_forall_mem_list (fun _ _ other member _ => all other member)
        · rintro ⟨behind, _⟩ other member works
          rcases List.mem_cons.mp member with same | inRest
          · exact absurd (same ▸ fails) works
          · exact absurd (behind other inRest fails) works
      · rw [visitAll_goes_on fails, List.pairwise_cons,
          and_iff_right (fun other _ impossible => absurd impossible fails)]
        have same : forall other, other ∈ rest ->
            (monitor.visitOne diskEvery id (visits id)).1.rows other = monitor.rows other :=
          fun other member => visitOne_rows (others other member) (visits id)
        have silent : forall other seen, other ∈ rest ->
            .observe other seen ∉ (monitor.visitOne diskEvery id (visits id)).1.calls := by
          intro other seen member
          exact (visitOne_adds (visits id)).not_mem (others other member)
            (none other seen (List.mem_cons_of_mem id member))
        have later := @induction (monitor.visitOne diskEvery id (visits id)).1 distinct silent
        rw [List.Pairwise.iff_of_mem (fun {earlier} {_} inEarlier inLater =>
          imp_congr (fails_congr (same earlier inEarlier)) (fails_congr (same _ inLater)))] at later
        rw [<- later]
        constructor
        · intro looked other member works
          have found := looked other (List.mem_cons_of_mem id member)
            (fun failing => works ((fails_congr (same other member)).mpr failing))
          exact found.since (same other member).symm
        · intro looked other member works
          rcases List.mem_cons.mp member with rfl | inRest
          · exact (visitOne_looks monitor other).later visitAll_adds (visitAll_rows outside)
          · have found := looked other inRest
              (fun failing => works ((fails_congr (same other inRest)).mp failing))
            exact found.since (same other inRest)

/-- Forgetting containers leaves the others alone, and observes none. -/
theorem forgetAll_rows {gone : List Text} : forall {monitor : Monitor}, other ∉ gone ->
    (gone.foldl forget monitor).rows other = monitor.rows other := by
  induction gone with
  | nil => exact fun _ => rfl
  | cons id rest induction =>
      intro monitor outside
      rcases not_or.mp (List.mem_cons.not.mp outside) with ⟨different, behind⟩
      rw [List.foldl_cons, induction behind, forget_rows different]

theorem forgetAll_adds {gone : List Text} : forall {monitor : Monitor},
    Adds (fun _ => True) monitor (gone.foldl forget monitor) := by
  induction gone with
  | nil => exact fun {monitor} => Adds.refl _ monitor
  | cons id rest induction =>
      intro monitor
      refine Adds.trans ⟨[.forgetRuntimeState id, .detachReader id], rfl, ?_⟩ induction
      intro other seen _ member
      simp at member

/-- A scan looks after every container whose visit does not fail exactly when, in the order in which
it goes through them, none of these comes behind one whose visit fails. -/
theorem scan_looks_after_iff (diskEvery : Nat) (visits : Text -> Visit) (listing : Listing)
    (monitor : Monitor) :
    (forall id, id ∈ listing.order -> Not (monitor.Fails visits id) ->
        LookedAfter visits monitor (monitor.scanOnce diskEvery (.ok listing) visits).1 id) <->
      listing.order.Pairwise
        (fun earlier later => monitor.Fails visits earlier -> monitor.Fails visits later) := by
  generalize begin : (({ monitor with calls := [] } : Monitor).stale listing).foldl forget
    { monitor with calls := [] } = began
  have same : forall id, id ∈ listing.order -> began.rows id = monitor.rows id := by
    intro id listed
    rw [<- begin, forgetAll_rows]
    · rfl
    · intro gone
      have absent := (List.mem_filter.mp (List.mem_dedup.mp gone)).2
      exact of_decide_eq_true absent listed
  have silent : forall id seen, id ∈ listing.order -> .observe id seen ∉ began.calls := by
    intro id seen _
    rw [<- begin]
    exact forgetAll_adds.not_mem trivial List.not_mem_nil
  have looks := @visitAll_looks_iff diskEvery visits listing.order began listing.nodup silent
  rw [List.Pairwise.iff_of_mem (fun {earlier} {_} inEarlier inLater =>
    imp_congr (fails_congr (same earlier inEarlier)) (fails_congr (same _ inLater)))] at looks
  rw [<- looks]
  have ended : (monitor.scanOnce diskEvery (.ok listing) visits).1 =
      (visitAll diskEvery visits listing.order began).1 := by
    rw [<- begin]
    rfl
  rw [ended]
  constructor
  · intro looked id listed works
    exact (looked id listed (fun failing => works ((fails_congr (same id listed)).mpr failing))).since
      (same id listed).symm
  · intro looked id listed works
    exact (looked id listed (fun failing => works ((fails_congr (same id listed)).mp failing))).since
      (same id listed)

/-- The containers a and b, gone through in this order; the first cannot be inspected. -/
def twoListed : Listing where
  raw := "a\nb\n".toList
  order := ["a".toList, "b".toList]
  nodup := by decide
  covers := fun _ => Iff.rfl

def firstUnreadable (id : Text) : Visit where
  observedAt := 0
  checkedAt := 0
  inspect := if id = "a".toList then .error (.bail "inspect") else .ok .null
  diskForce := .ok (0, 0)

theorem second_not_looked_after :
    Not (forall id, id ∈ twoListed.order -> Not ((({} : Monitor)).Fails firstUnreadable id) ->
      LookedAfter firstUnreadable {}
        ((({} : Monitor)).scanOnce (seconds 150) (.ok twoListed) firstUnreadable).1 id) := by
  intro looked
  have works : Not ((({} : Monitor)).Fails firstUnreadable "b".toList) := by
    rintro (⟨failure, impossible⟩ | ⟨_, failure, impossible⟩)
    · cases impossible
    · cases impossible
  have observed := (looked "b".toList (by decide) works .null rfl).1
  have made : ((({} : Monitor)).scanOnce (seconds 150) (.ok twoListed) firstUnreadable).1.calls =
      [.inspect "a".toList] := by decide +kernel
  rw [made] at observed
  cases List.mem_singleton.mp observed

end Monitor

end Runtime
end Agapornis
