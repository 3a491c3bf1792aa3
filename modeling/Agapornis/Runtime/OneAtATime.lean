import Agapornis.Runtime.Alone

namespace Agapornis
namespace Runtime
namespace Replacing

open Foundations Agapornis.Core

/-!
# Requests for a server one at a time

The requests for a server that come one at a time leave what they leave one
after the other, each as one piece, and are answered so, whatever goes on for
the other servers meanwhile.
-/

/-! ## One piece after the other -/

/-- What a server has come to, the number of the requests so far, and the
answers to those for the server. -/
structure Ledger where
  view : View
  arrived : Nat
  answers : List (Nat × Except Failure Unit)

def Ledger.serve (id : Text) (ledger : Ledger) : Turn -> Ledger
  | .request server change course =>
      if server = id then
        let done := change.whole course id (ledger.view.alone id)
        ⟨View.ofServer id done.1, ledger.arrived + 1, ledger.answers ++ [(ledger.arrived, done.2)]⟩
      else { ledger with arrived := ledger.arrived + 1 }
  | .advance _ => ledger
  | .power server running =>
      if server = id then
        { ledger with view := { ledger.view with
          container := ledger.view.container.map (fun container => { container with running := running }) } }
      else ledger
  | .describe server descriptor =>
      if server = id then { ledger with view := { ledger.view with descriptor := descriptor } } else ledger
  | .create server container =>
      if server = id /\ ledger.view.container = none /\ container.label serverIdLabel = some id then
        { ledger with view := { ledger.view with container := some container } }
      else ledger
  | .delete server =>
      if server = id then { ledger with view := { ledger.view with container := none } } else ledger

def ledgerAfter (id : Text) (start : Host) (run : List Turn) : Ledger :=
  run.foldl (Ledger.serve id) ⟨View.of id start, 0, []⟩

/-- Nothing is done with a server while a request for it goes on. -/
def OneAtATime (id : Text) (state : State) (turn : Turn) : Prop :=
  turn.named = some id -> forall task, task ∈ state.tasks -> task.server = id -> Not (task.phase.answer = none)

instance OneAtATime.decidable (id : Text) (state : State) (turn : Turn) : Decidable (OneAtATime id state turn) :=
  inferInstanceAs (Decidable (turn.named = some id -> forall task, task ∈ state.tasks -> task.server = id ->
    Not (task.phase.answer = none)))

/-! ## What requests for other servers leave alone -/

section Frame

variable {task : Task} {host : Host}

theorem advance_elsewhere {name : Text} (notServer : Not (name = task.server)) (notStale : Not (name = task.stale)) :
    (task.advance host).1.containers name = host.containers name := by
  rcases task with ⟨server, change, course, phase⟩
  unfold Task.advance
  cases phase with
  | inspecting => rfl
  | writing request container config labels =>
      dsimp only
      split
      · rfl
      · rfl
  | stopping body =>
      dsimp only
      split
      · exact Containers.put_other _ _ notServer
      · exact Containers.put_other _ _ notServer
  | settingAside plan =>
      dsimp only
      split
      · rfl
      · exact Containers.rename_other notStale notServer
  | creating plan =>
      dsimp only
      split
      · rfl
      · exact Containers.put_other _ _ notServer
  | rollingBack error =>
      dsimp only
      split
      · exact Containers.rename_other notServer notStale
      · rfl
  | removing wasRunning =>
      dsimp only
      split
      · exact Containers.put_other _ _ notStale
      · rfl
  | starting =>
      dsimp only
      split
      · exact Containers.put_other _ _ notServer
      · exact Containers.put_other _ _ notServer
  | ended result => rfl
  | strayed failure => rfl

theorem advance_descriptor {other : Text} (notServer : Not (other = task.server)) :
    (task.advance host).1.descriptors other = host.descriptors other := by
  rcases task with ⟨server, change, course, phase⟩
  unfold Task.advance
  cases phase with
  | writing request container config labels =>
      dsimp only
      split
      · exact if_neg notServer
      · exact if_neg notServer
  | removing wasRunning =>
      dsimp only
      split
      · rfl
      · rfl
  | inspecting => rfl
  | stopping body => dsimp only; split <;> rfl
  | settingAside plan => dsimp only; split <;> rfl
  | creating plan => dsimp only; split <;> rfl
  | rollingBack error => dsimp only; split <;> rfl
  | starting => dsimp only; split <;> rfl
  | ended result => rfl
  | strayed failure => rfl

end Frame

/-- The requests of a run have servers and stale names of their own. -/
structure Separate (servers : List Text) (tasks : List Task) : Prop where
  known : forall (index : Nat) task, tasks[index]? = some task -> task.server ∈ servers
  unlike : forall (index : Nat) task, tasks[index]? = some task -> task.stale ∉ servers
  distinct : forall (first second : Nat) task other, tasks[first]? = some task ->
    tasks[second]? = some other -> task.stale = other.stale -> first = second

section Runs

variable {servers : List Text} {start : Host} {run : List Turn}

theorem servers_after (apart : Apart servers run) :
    forall task, task ∈ (after start run).tasks -> task.server ∈ servers := by
  induction run using List.reverseRecOn with
  | nil =>
      intro task impossible
      cases impossible
  | append_singleton front turn induction =>
      have before := induction apart.front
      rw [after_append]
      cases turn with
      | request server change course =>
          intro task member
          rcases List.mem_append.mp member with earlier | last
          · exact before task earlier
          · rw [List.mem_singleton.mp last]
            exact apart.last rfl
      | advance index =>
          unfold takeTurn
          dsimp only
          split
          · exact before
          · next task here =>
              intro other member
              rcases List.mem_or_eq_of_mem_set member with earlier | rfl
              · exact before other earlier
              · exact before task (List.mem_of_getElem? here)
      | power server running => exact before
      | describe server descriptor => exact before
      | create server container => exact before
      | delete server => exact before

theorem separate_after (apart : Apart servers run) : Separate servers (after start run).tasks where
  known index task here := servers_after apart task (List.mem_of_getElem? here)
  unlike := by
    intro index task here
    refine apart.unlike task.stale ?_
    rw [← @stales_after start run]
    exact List.mem_map_of_mem (List.mem_of_getElem? here)
  distinct := by
    intro first second task other hereTask hereOther same
    have unique := apart.stales
    rw [← @stales_after start run] at unique
    have atFirst : ((after start run).tasks.map Task.stale)[first]? = some task.stale := by
      rw [List.getElem?_map, hereTask]
      rfl
    have atSecond : ((after start run).tasks.map Task.stale)[second]? = some task.stale := by
      rw [List.getElem?_map, hereOther, same]
      rfl
    exact (List.getElem?_inj (List.getElem?_eq_some_iff.mp atFirst).1 unique).mp (atFirst.trans atSecond.symm)

/-- A name that is neither a server's nor a request's stays as it was. -/
theorem after_elsewhere (apart : Apart servers run) {name : Text} (notServer : name ∉ servers)
    (notStale : name ∉ run.filterMap Turn.stale) :
    (after start run).host.containers name = start.containers name := by
  induction run using List.reverseRecOn with
  | nil => rfl
  | append_singleton front turn induction =>
      have earlier : name ∉ front.filterMap Turn.stale := by
        intro member
        refine notStale ?_
        rw [List.filterMap_append]
        exact List.mem_append_left _ member
      rw [← induction apart.front earlier, after_append]
      have unnamed : forall server, turn.named = some server -> Not (name = server) :=
        fun server names same => notServer (same ▸ apart.last names)
      cases turn with
      | request server change course => rfl
      | advance index =>
          unfold takeTurn
          dsimp only
          split
          · rfl
          · next task here =>
              refine advance_elsewhere ?_ ?_
              · intro same
                exact notServer (same ▸ servers_after apart.front task (List.mem_of_getElem? here))
              · intro same
                refine earlier ?_
                rw [same, ← @stales_after start front]
                exact List.mem_map_of_mem (List.mem_of_getElem? here)
      | power server running => exact Containers.put_other _ _ (unnamed server rfl)
      | describe server descriptor => rfl
      | create server container =>
          unfold takeTurn Host.create
          dsimp only
          split
          · exact Containers.put_other _ _ (unnamed server rfl)
          · rfl
      | delete server => exact Containers.put_other _ _ (unnamed server rfl)

end Runs

/-! ## The requests and the ledger -/

/-- No request for the server goes on. -/
structure Idle (id : Text) (ledger : Ledger) (state : State) : Prop where
  view : View.of id state.host = ledger.view
  answers : forall (index : Nat) task, state.tasks[index]? = some task -> task.server = id ->
    Exists fun answer => (index, answer) ∈ ledger.answers /\ task.phase.answer = some answer

/-- A request for the server goes on, to what the ledger has. -/
structure Busy (id : Text) (ledger : Ledger) (state : State) (current : Nat) (task : Task) : Prop where
  here : state.tasks[current]? = some task
  server : task.server = id
  reaches : Exists fun answer => (current, answer) ∈ ledger.answers /\ Reaches task state.host ledger.view answer
  answers : forall (index : Nat) other, state.tasks[index]? = some other -> other.server = id ->
    Not (index = current) -> Exists fun answer => (index, answer) ∈ ledger.answers /\ other.phase.answer = some answer

structure Serving (id : Text) (ledger : Ledger) (state : State) : Prop where
  arrived : ledger.arrived = state.tasks.length
  now : Idle id ledger state \/ Exists fun current => Exists fun task => Busy id ledger state current task

section Serves

variable {servers : List Text} {id : Text} {ledger : Ledger} {state : State} {running : Bool}

/-- When all requests for the server are answered, none goes on. -/
theorem Serving.idle (serving : Serving id ledger state)
    (answered : forall task, task ∈ state.tasks -> task.server = id -> Not (task.phase.answer = none)) :
    Idle id ledger state := by
  rcases serving.now with idle | ⟨current, task, busy⟩
  · exact idle
  · rcases Option.ne_none_iff_exists'.mp (answered task (List.mem_of_getElem? busy.here) busy.server) with
      ⟨given, settled⟩
    rcases busy.reaches with ⟨answer, entered, reaches⟩
    rcases reaches.settled settled with ⟨view, same⟩
    refine ⟨?_, ?_⟩
    · rw [← busy.server]
      exact view
    · intro index other there ofServer
      by_cases own : index = current
      · subst own
        cases there.symm.trans busy.here
        exact ⟨answer, entered, settled.trans (congrArg some same.symm)⟩
      · exact busy.answers index other there ofServer own

/-- What happens to other names does not matter. -/
theorem Serving.elsewhere (serving : Serving id ledger state) {host : Host}
    (same : View.of id host = View.of id state.host)
    (stales : forall task, task ∈ state.tasks -> task.server = id ->
      host.containers task.stale = state.host.containers task.stale) :
    Serving id ledger { state with host := host } where
  arrived := serving.arrived
  now := by
    rcases serving.now with idle | ⟨current, task, busy⟩
    · exact Or.inl ⟨same.trans idle.view, idle.answers⟩
    · rcases busy.reaches with ⟨answer, entered, reaches⟩
      refine Or.inr ⟨current, task, busy.here, busy.server, ⟨answer, entered, reaches.agree ?_⟩, busy.answers⟩
      have server := busy.server
      subst server
      exact ⟨(congrArg View.container same).symm,
        (stales task (List.mem_of_getElem? busy.here) rfl).symm, (congrArg View.descriptor same).symm⟩

/-- A request for another server may go on. -/
theorem Serving.foreign (serving : Serving id ledger state) {index : Nat} {task : Task}
    (here : state.tasks[index]? = some task) (other : Not (task.server = id)) (phase : Phase) :
    Serving id ledger { state with tasks := state.tasks.set index { task with phase := phase } } where
  arrived := serving.arrived.trans List.length_set.symm
  now := by
    rcases serving.now with idle | ⟨current, mine, busy⟩
    · refine Or.inl ⟨idle.view, ?_⟩
      intro second found there ofServer
      rcases set_some there with ⟨rfl, rfl⟩ | ⟨_, earlier⟩
      · exact absurd ofServer other
      · exact idle.answers second found earlier ofServer
    · have differs : Not (index = current) := by
        intro same
        subst same
        cases here.symm.trans busy.here
        exact other busy.server
      refine Or.inr ⟨current, mine, ?_, busy.server, busy.reaches, ?_⟩
      · exact (List.getElem?_set_ne differs).trans busy.here
      · intro second found there ofServer notCurrent
        rcases set_some there with ⟨rfl, rfl⟩ | ⟨_, earlier⟩
        · exact absurd ofServer other
        · exact busy.answers second found earlier ofServer notCurrent

/-- The request for the server that goes on makes its next call. -/
theorem Busy.call {current : Nat} {task : Task} (busy : Busy id ledger state current task) :
    Busy id ledger ⟨(task.advance state.host).1,
      state.tasks.set current { task with phase := (task.advance state.host).2 }⟩ current
      { task with phase := (task.advance state.host).2 } where
  here := List.getElem?_set_self (List.getElem?_eq_some_iff.mp busy.here).1
  server := busy.server
  reaches := by
    rcases busy.reaches with ⟨answer, entered, reaches⟩
    exact ⟨answer, entered, reaches.call⟩
  answers := by
    intro index other there ofServer differs
    rcases set_some there with ⟨same, _⟩ | ⟨_, earlier⟩
    · exact absurd same differs
    · exact busy.answers index other earlier ofServer differs

/-- A request with an answer makes no call any more. -/
theorem takeTurn_answered {index : Nat} {task : Task} (here : state.tasks[index]? = some task)
    {answer : Except Failure Unit} (answered : task.phase.answer = some answer) :
    takeTurn state (.advance index) = state := by
  unfold takeTurn
  dsimp only
  rw [here]
  dsimp only
  have still : go (task, state.host) = (task, state.host) := go_answered answered
  have sameTask : { task with phase := (task.advance state.host).2 } = task := congrArg Prod.fst still
  have sameHost : (task.advance state.host).1 = state.host := congrArg Prod.snd still
  rw [sameTask, sameHost]
  rcases List.getElem?_eq_some_iff.mp here with ⟨within, same⟩
  have unset : state.tasks.set index task = state.tasks := by
    rw [← same]
    exact List.set_getElem_self within
  rw [unset]

theorem serving_advance (separate : Separate servers state.tasks) (member : id ∈ servers)
    (serving : Serving id ledger state) (index : Nat) : Serving id ledger (takeTurn state (.advance index)) := by
  cases here : state.tasks[index]? with
  | none =>
      unfold takeTurn
      dsimp only
      rw [here]
      exact serving
  | some task =>
      have taken : takeTurn state (.advance index) = ⟨(task.advance state.host).1,
          state.tasks.set index { task with phase := (task.advance state.host).2 }⟩ := by
        unfold takeTurn
        dsimp only
        rw [here]
      by_cases own : task.server = id
      · cases answered : task.phase.answer with
        | some answer =>
            rw [takeTurn_answered here answered]
            exact serving
        | none =>
            rcases serving.now with idle | ⟨current, mine, busy⟩
            · rcases idle.answers index task here own with ⟨answer, _, settled⟩
              cases answered.symm.trans settled
            · by_cases same : index = current
              · subst same
                cases here.symm.trans busy.here
                rw [taken]
                exact ⟨serving.arrived.trans List.length_set.symm, Or.inr ⟨index, _, busy.call⟩⟩
              · rcases busy.answers index task here own same with ⟨answer, _, settled⟩
                cases answered.symm.trans settled
      · rw [taken]
        refine (serving.foreign here own _).elsewhere ?_ ?_
        · refine congrArg₂ View.mk (advance_elsewhere (fun same => own same.symm) ?_)
            (advance_descriptor (fun same => own same.symm))
          intro same
          exact separate.unlike index task here (same ▸ member)
        · intro other among ofServer
          rcases List.mem_iff_getElem?.mp among with ⟨second, there⟩
          have earlier : Exists fun (second : Nat) => Exists fun found => state.tasks[second]? = some found /\
              found.stale = other.stale /\ Not (second = index) := by
            rcases set_some there with ⟨rfl, rfl⟩ | ⟨differs, earlier⟩
            · exact absurd ofServer own
            · exact ⟨second, other, earlier, rfl, differs⟩
          rcases earlier with ⟨second, found, there, sameStale, differs⟩
          rw [← sameStale]
          refine advance_elsewhere ?_ ?_
          · intro same
            exact separate.unlike second found there (same ▸ separate.known index task here)
          · intro same
            exact differs (separate.distinct second index found task there here same)

/-- A request for the server arrives when none goes on. -/
theorem serving_request (idle : Idle id ledger state) (arrived : ledger.arrived = state.tasks.length)
    {change : Change} {course : ReconfigurationCourse} (free : state.host.containers (staleName course id) = none) :
    Serving id (ledger.serve id (.request id change course)) (takeTurn state (.request id change course)) := by
  unfold Ledger.serve takeTurn
  dsimp only
  rw [if_pos rfl]
  refine ⟨?_, Or.inr ⟨state.tasks.length, ⟨id, change, course, .inspecting⟩, ?_, rfl, ?_, ?_⟩⟩
  · dsimp only
    rw [arrived, List.length_append, List.length_singleton]
  · exact List.getElem?_concat_length
  · refine ⟨(change.whole course id (ledger.view.alone id)).2, ?_, ?_⟩
    · rw [← arrived]
      exact List.mem_append_right _ (List.mem_singleton.mpr rfl)
    · dsimp only
      rw [← idle.view]
      exact reaches_whole free
  · intro index other there ofServer differs
    rcases concat_some there with earlier | ⟨last, _⟩
    · rcases idle.answers index other earlier ofServer with ⟨answer, entered, settled⟩
      exact ⟨answer, List.mem_append_left _ entered, settled⟩
    · exact absurd last differs

theorem serving_foreignRequest (serving : Serving id ledger state) {server : Text} (other : Not (server = id))
    {change : Change} {course : ReconfigurationCourse} :
    Serving id (ledger.serve id (.request server change course)) (takeTurn state (.request server change course)) := by
  unfold Ledger.serve takeTurn
  dsimp only
  rw [if_neg other]
  have earlier : forall {index : Nat} {task : Task},
      (state.tasks ++ [⟨server, change, course, .inspecting⟩])[index]? = some task -> task.server = id ->
        state.tasks[index]? = some task := by
    intro index task there ofServer
    rcases concat_some there with found | ⟨_, rfl⟩
    · exact found
    · exact absurd ofServer other
  refine ⟨?_, ?_⟩
  · dsimp only
    rw [serving.arrived, List.length_append, List.length_singleton]
  · rcases serving.now with idle | ⟨current, mine, busy⟩
    · exact Or.inl ⟨idle.view, fun index task there ofServer =>
        idle.answers index task (earlier there ofServer) ofServer⟩
    · refine Or.inr ⟨current, mine, ?_, busy.server, busy.reaches, ?_⟩
      · exact (List.getElem?_append_left (List.getElem?_eq_some_iff.mp busy.here).1).trans busy.here
      · intro index task there ofServer differs
        exact busy.answers index task (earlier there ofServer) ofServer differs

/-- The server itself is started or stopped, created or deleted when no request goes on. -/
theorem Idle.serving (idle : Idle id ledger state) (arrived : ledger.arrived = state.tasks.length) {host : Host}
    {view : View} (now : View.of id host = view) :
    Serving id { ledger with view := view } { state with host := host } :=
  ⟨arrived, Or.inl ⟨now, idle.answers⟩⟩

theorem serving_power (separate : Separate servers state.tasks) (serving : Serving id ledger state) {server : Text}
    (named : server ∈ servers) (alone : OneAtATime id state (.power server running)) :
    Serving id (ledger.serve id (.power server running)) (takeTurn state (.power server running)) := by
  unfold Ledger.serve takeTurn
  dsimp only
  by_cases own : server = id
  · subst own
    have idle := serving.idle (alone rfl)
    rw [if_pos rfl, ← idle.view]
    exact idle.serving serving.arrived (congrArg₂ View.mk (Containers.put_self _ _ _) rfl)
  · rw [if_neg own]
    refine serving.elsewhere (congrArg₂ View.mk (Containers.put_other _ _ (fun same => own same.symm)) rfl) ?_
    intro task among _
    rcases List.mem_iff_getElem?.mp among with ⟨index, here⟩
    exact Containers.put_other _ _ (fun same => separate.unlike index task here (same ▸ named))

theorem serving_describe (serving : Serving id ledger state) {server : Text} {descriptor : Option Text}
    (alone : OneAtATime id state (.describe server descriptor)) :
    Serving id (ledger.serve id (.describe server descriptor)) (takeTurn state (.describe server descriptor)) := by
  unfold Ledger.serve takeTurn
  dsimp only
  by_cases own : server = id
  · subst own
    have idle := serving.idle (alone rfl)
    rw [if_pos rfl, ← idle.view]
    exact idle.serving serving.arrived (congrArg₂ View.mk rfl (if_pos rfl))
  · rw [if_neg own]
    exact serving.elsewhere (congrArg₂ View.mk rfl (if_neg fun same => own same.symm)) fun _ _ _ => rfl

theorem serving_create (separate : Separate servers state.tasks) (serving : Serving id ledger state) {server : Text}
    (named : server ∈ servers) {container : Container} (alone : OneAtATime id state (.create server container)) :
    Serving id (ledger.serve id (.create server container)) (takeTurn state (.create server container)) := by
  unfold Ledger.serve takeTurn Host.create
  dsimp only
  by_cases own : server = id
  · subst own
    have idle := serving.idle (alone rfl)
    rw [← idle.view]
    by_cases made : state.host.containers server = none /\ container.label serverIdLabel = some server
    · rw [if_pos made, if_pos ⟨rfl, made⟩]
      exact idle.serving serving.arrived (congrArg₂ View.mk (Containers.put_self _ _ _) rfl)
    · rw [if_neg made, if_neg (fun all => made all.2)]
      exact serving
  · rw [if_neg (fun all => own all.1)]
    split
    · refine serving.elsewhere (congrArg₂ View.mk (Containers.put_other _ _ (fun same => own same.symm)) rfl) ?_
      intro task among _
      rcases List.mem_iff_getElem?.mp among with ⟨index, here⟩
      exact Containers.put_other _ _ (fun same => separate.unlike index task here (same ▸ named))
    · exact serving

theorem serving_delete (separate : Separate servers state.tasks) (serving : Serving id ledger state) {server : Text}
    (named : server ∈ servers) (alone : OneAtATime id state (.delete server)) :
    Serving id (ledger.serve id (.delete server)) (takeTurn state (.delete server)) := by
  unfold Ledger.serve takeTurn
  dsimp only
  by_cases own : server = id
  · subst own
    have idle := serving.idle (alone rfl)
    rw [if_pos rfl, ← idle.view]
    exact idle.serving serving.arrived (congrArg₂ View.mk (Containers.put_self _ _ _) rfl)
  · rw [if_neg own]
    refine serving.elsewhere (congrArg₂ View.mk (Containers.put_other _ _ (fun same => own same.symm)) rfl) ?_
    intro task among _
    rcases List.mem_iff_getElem?.mp among with ⟨index, here⟩
    exact Containers.put_other _ _ (fun same => separate.unlike index task here (same ▸ named))

end Serves

theorem along_last {start : Host} {front : List Turn} {turn : Turn} {condition : State -> Turn -> Prop}
    (along : Machine.Along takeTurn condition ⟨start, []⟩ (front ++ [turn])) :
    Machine.Along takeTurn condition ⟨start, []⟩ front /\ condition (after start front) turn := by
  rcases (Machine.along_append takeTurn condition front [turn] ⟨start, []⟩).mp along with ⟨before, last, _⟩
  exact ⟨before, last⟩

theorem serving_after {servers : List Text} {start : Host} {run : List Turn} {id : Text} (apart : Apart servers run)
    (member : id ∈ servers)
    (free : forall stale, stale ∈ run.filterMap Turn.stale -> start.containers stale = none)
    (serial : Machine.Along takeTurn (OneAtATime id) ⟨start, []⟩ run) :
    Serving id (ledgerAfter id start run) (after start run) := by
  induction run using List.reverseRecOn with
  | nil =>
      refine ⟨rfl, Or.inl ⟨rfl, ?_⟩⟩
      intro index task impossible
      cases impossible
  | append_singleton front turn induction =>
      rcases along_last serial with ⟨serialFront, alone⟩
      have freeFront : forall stale, stale ∈ front.filterMap Turn.stale -> start.containers stale = none := by
        intro stale among
        refine free stale ?_
        rw [List.filterMap_append]
        exact List.mem_append_left _ among
      have serving := induction apart.front freeFront serialFront
      have separate := @separate_after servers start front apart.front
      have taken : ledgerAfter id start (front ++ [turn]) = (ledgerAfter id start front).serve id turn :=
        List.foldl_append
      rw [taken, after_append]
      cases turn with
      | request server change course =>
          by_cases own : server = id
          · subst own
            have last :
                staleName course server ∈ (front ++ [Turn.request server change course]).filterMap Turn.stale := by
              rw [List.filterMap_append]
              exact List.mem_append_right _ (List.mem_singleton.mpr rfl)
            have unique := apart.stales
            rw [List.filterMap_append] at unique
            refine serving_request (serving.idle (alone rfl)) serving.arrived ?_
            rw [after_elsewhere apart.front (apart.unlike _ last) ?_]
            · exact free _ last
            · intro earlier
              exact (List.nodup_append.mp unique).2.2 _ earlier (staleName course server)
                (List.mem_singleton.mpr rfl) rfl
          · exact serving_foreignRequest serving own
      | advance index => exact serving_advance separate member serving index
      | power server running => exact serving_power separate serving (apart.last rfl) alone
      | describe server descriptor => exact serving_describe serving alone
      | create server container => exact serving_create separate serving (apart.last rfl) alone
      | delete server => exact serving_delete separate serving (apart.last rfl) alone

/-- Where the requests for a server come one at a time, the server is what they
make of it one after the other, each as one piece, and each is answered so. -/
theorem one_at_a_time {servers : List Text} {start : Host} {run : List Turn} {id : Text} (apart : Apart servers run)
    (member : id ∈ servers)
    (free : forall stale, stale ∈ run.filterMap Turn.stale -> start.containers stale = none)
    (serial : Machine.Along takeTurn (OneAtATime id) ⟨start, []⟩ run)
    (answered : forall task, task ∈ (after start run).tasks -> task.server = id -> Not (task.phase.answer = none)) :
    View.of id (after start run).host = (ledgerAfter id start run).view /\
      forall (index : Nat) task, (after start run).tasks[index]? = some task -> task.server = id ->
        Exists fun answer => (index, answer) ∈ (ledgerAfter id start run).answers /\
          task.phase.answer = some answer := by
  have idle := (serving_after apart member free serial).idle answered
  exact ⟨idle.view, idle.answers⟩

/-- Two requests for one server, one after the other, and one for another server in between;
then the server is deleted, and its creation fails before there is a container. -/
def serialRun : List Turn :=
  [portsTurn "1", .advance 0, .request "server-2".toList (.repair true) refusedRename, .advance 0, .advance 1,
    .advance 0, .advance 0, portsTurn "2", .advance 2, .advance 2, .advance 2, .advance 2] ++
      (deletion "server-1".toList ++ creation "server-1".toList "{}".toList none)

theorem serialRun_apart : Apart ["server-1".toList, "server-2".toList] serialRun where
  named := by
    intro turn member server names
    simp only [serialRun, portsTurn, deletion, creation, Option.map_none, Option.toList_none, List.cons_append,
      List.nil_append, List.mem_cons, List.not_mem_nil, or_false] at member
    rcases member with rfl | rfl | rfl | rfl | rfl | rfl | rfl | rfl | rfl | rfl | rfl | rfl | rfl | rfl | rfl <;>
      cases names <;> simp
  stales := by decide
  unlike := by decide

theorem one_at_a_time_ports :
    View.of "server-1".toList (after ⟨(sampleServer false).containers, fun _ => none⟩ serialRun).host =
        (ledgerAfter "server-1".toList ⟨(sampleServer false).containers, fun _ => none⟩ serialRun).view /\
      forall (index : Nat) task,
        (after ⟨(sampleServer false).containers, fun _ => none⟩ serialRun).tasks[index]? = some task ->
          task.server = "server-1".toList -> Exists fun answer =>
            (index, answer) ∈ (ledgerAfter "server-1".toList
              ⟨(sampleServer false).containers, fun _ => none⟩ serialRun).answers /\
            task.phase.answer = some answer :=
  one_at_a_time serialRun_apart (by decide) (by decide) (by decide +kernel) (by decide +kernel)

end Replacing
end Runtime
end Agapornis
