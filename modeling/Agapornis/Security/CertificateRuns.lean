import Agapornis.Security.Certificates

namespace Agapornis
namespace Security

open Foundations Agapornis.Core

/-!
# Whole bundles

Requests that come one after the other, and whose faults strike before they have
changed anything, leave whole bundles behind them, and no change if they fail.
-/

variable {Content : Type}

/-- The files of a kind are those of one installed bundle, or none is there. -/
def Whole (store : CertificateStore Content) (kind : FileKind) (installed : List (Bundle Content)) : Prop :=
  (forall part, store ⟨part, kind⟩ = none) \/
    Exists fun bundle => bundle ∈ installed /\ forall part, store ⟨part, kind⟩ = some (bundle.part part)

/-- What is promised when a request has returned. -/
structure Settled (installed : List (Bundle Content)) (before store : CertificateStore Content)
    (failed : Bool) : Prop where
  active : Whole store .active installed
  previous : Whole store .previous installed
  unchanged : failed = true -> forall part, store ⟨part, .active⟩ = before ⟨part, .active⟩

/-- The bundle that a rollback would restore, if it came to it, is valid. -/
def restorable (library : CertificateLibrary Content) (now : Int) (store : CertificateStore Content) : Bool :=
  match store ⟨.certificate, .active⟩, store ⟨.certificate, .previous⟩, store ⟨.authority, .previous⟩ with
  | some _, some certificate, some authority =>
      library.isText certificate && library.isText authority &&
        (library.validate now certificate authority).isOk
  | _, _, _ => true

/-- A call looks for an active file. -/
def CertificateCall.seeksActive : CertificateCall Content -> Bool
  | .probe file => file.kind = .active
  | _ => false

/-- A fault at the next call of a request does no harm: the request has not
touched the two bundles yet and does not look for an active file, or it looks for
a file that is not there. -/
def withstands (store : CertificateStore Content) (touched : Bool) :
    CertificateProgram Content Text -> Bool
  | .call (.probe file) _ => (store file).isNone || (!touched && file.kind ≠ .active)
  | .call _ _ => !touched
  | .done _ => true
  | .failed _ => true

/-- A call goes wrong. -/
def CertificateAction.strikes : CertificateAction Content -> Bool
  | .proceed _ (some _) => true
  | _ => false

namespace CertificateManager

/-- A request begins when none is under way, and a rollback only to a valid
bundle; a fault strikes a request only where it does no harm. -/
def undisturbed (library : CertificateLibrary Content) (manager : CertificateManager Content) :
    CertificateAction Content -> Bool
  | .install _ _ _ => manager.requests.isEmpty
  | .rollback now => manager.requests.isEmpty && restorable library now manager.store
  | .proceed _ none => true
  | .proceed index (some _) =>
      match manager.requests[index]? with
      | none => true
      | some request => withstands manager.store request.touched request.program

/-- Whenever a request has returned, the bundles are whole, and the active one is
as before if it failed. -/
def NeverMixed (library : CertificateLibrary Content) (active previous : Option (Bundle Content))
    (run : List (CertificateAction Content)) : Prop :=
  forall front back, run = front ++ back -> forall failed before,
    (after library active previous front).returned = some (failed, before) ->
      Settled (after library active previous front).installed before
        (after library active previous front).store failed

end CertificateManager

section Programs

variable (library : CertificateLibrary Content) (new installed : List (Bundle Content))
  (before : CertificateStore Content)

/-- However a program goes on without being disturbed, it keeps what is promised. -/
def Ends : CertificateProgram Content Text -> Bool -> CertificateStore Content -> Prop
  | .done _, _, store => Settled (new ++ installed) before store false
  | .failed _, _, store => Settled installed before store true
  | .call call next, touched, store => forall fault : Option (Fault Content),
      (fault.isSome = true -> withstands store touched (.call call next) = true) ->
        Ends (next (performWithFault library fault call store).1) (touched || call.touches)
          (performWithFault library fault call store).2

/-- What a program comes to without faults is what is promised. -/
def Delivers (program : CertificateProgram Content Text) (store : CertificateStore Content) : Prop :=
  match program.run (perform library) store with
  | (.ok _, store) => Settled (new ++ installed) before store false
  | (.error _, store) => Settled installed before store true

/-- Two states of the files agree on the two bundles. -/
def SameBundles (one other : CertificateStore Content) : Prop :=
  forall file, Not (file.kind = .new) -> one file = other file

/-- Up to its first change of the two bundles a program gives up at a fault, and
the fault leaves the bundles alone. -/
def Careful {Result : Type} (kept : Result -> CertificateStore Content -> Prop) :
    CertificateProgram Content Result -> CertificateStore Content -> Prop
  | .done result, store => kept result store
  | .failed _, _ => True
  | .call call next, store =>
      (call.seeksActive = false ->
        (forall error, Exists fun failure => next (refusal error call) = .failed failure) /\
          forall left, SameBundles (leftBehind left call store) store) /\
        (call.touches = false ->
          Careful kept (next (perform library call store).1) (perform library call store).2)

variable {library new installed before}

theorem SameBundles.refl (store : CertificateStore Content) : SameBundles store store :=
  fun _ _ => rfl

theorem SameBundles.trans {one other last : CertificateStore Content}
    (first : SameBundles one other) (second : SameBundles other last) : SameBundles one last :=
  fun file bundled => (first file bundled).trans (second file bundled)

theorem Whole.of_same {store later : CertificateStore Content} {kind : FileKind}
    (whole : Whole store kind installed) (bundled : Not (kind = .new)) (same : SameBundles later store) :
    Whole later kind installed := by
  have alike : forall part, later ⟨part, kind⟩ = store ⟨part, kind⟩ := fun part => same ⟨part, kind⟩ bundled
  rcases whole with none | ⟨bundle, member, parts⟩
  · exact Or.inl fun part => (alike part).trans (none part)
  · exact Or.inr ⟨bundle, member, fun part => (alike part).trans (parts part)⟩

theorem Settled.of_same {store later : CertificateStore Content} {failed : Bool}
    (settled : Settled installed before store failed) (same : SameBundles later store) :
    Settled installed before later failed where
  active := settled.active.of_same nofun same
  previous := settled.previous.of_same nofun same
  unchanged failed part := (same ⟨part, .active⟩ nofun).trans (settled.unchanged failed part)

theorem sameBundles_update {store : CertificateStore Content} {file : CertificateFile}
    (scratch : file.kind = .new) (content : Option Content) :
    SameBundles (Function.update store file content) store := by
  intro other bundled
  rw [Function.update_of_ne]
  intro same
  rw [same] at bundled
  exact bundled scratch

/-- A call that touches neither bundle leaves both as they are. -/
theorem sameBundles_perform {call : CertificateCall Content} {store : CertificateStore Content}
    (untouched : call.touches = false) : SameBundles (perform library call store).2 store := by
  cases call with
  | create file =>
      have scratch : file.kind = .new := by
        simpa only [CertificateCall.touches, ne_eq, decide_not, Bool.not_eq_false',
          decide_eq_true_eq] using untouched
      exact sameBundles_update scratch _
  | fill file content =>
      have scratch : file.kind = .new := by
        simpa only [CertificateCall.touches, ne_eq, decide_not, Bool.not_eq_false',
          decide_eq_true_eq] using untouched
      simp only [perform]
      split
      · exact sameBundles_update scratch _
      · exact SameBundles.refl store
  | rename source target =>
      simp only [CertificateCall.touches, ne_eq, decide_not, Bool.or_eq_false_iff, Bool.not_eq_false',
        decide_eq_true_eq] at untouched
      simp only [perform]
      split
      · exact (sameBundles_update untouched.1 _).trans (sameBundles_update untouched.2 _)
      · exact SameBundles.refl store
  | _ => exact SameBundles.refl store

/-- A fault hides nothing where there is no file. -/
theorem fault_of_absent {fault : Fault Content} {file : CertificateFile}
    {store : CertificateStore Content} (absent : (store file).isNone = true) :
    performWithFault library (some fault) (.probe file) store = perform library (.probe file) store := by
  simp only [performWithFault, perform, refusal, leftBehind, Option.isNone_iff_eq_none.mp absent,
    Option.isSome_none]

/-- After its first change a program meets no faults that matter. -/
theorem ends_of_delivers {program : CertificateProgram Content Text} :
    forall {store : CertificateStore Content}, Delivers library new installed before program store ->
      Ends library new installed before program true store := by
  induction program with
  | done result => exact fun delivers => delivers
  | failed failure => exact fun delivers => delivers
  | call call next induction =>
      intro store delivers fault allowed
      cases fault with
      | none => exact induction _ delivers
      | some fault =>
          have harmless := allowed rfl
          cases call with
          | probe file =>
              simp only [withstands, Bool.not_true, Bool.false_and, Bool.or_false] at harmless
              rw [fault_of_absent harmless]
              exact induction _ delivers
          | _ => cases harmless

theorem ends_of_careful {kept : Text -> CertificateStore Content -> Prop}
    {program : CertificateProgram Content Text} (unfailed : Settled installed before before true) :
    forall {store : CertificateStore Content}, SameBundles store before ->
      Careful library kept program store -> Delivers library new installed before program store ->
        Ends library new installed before program false store := by
  induction program with
  | done result => exact fun _ _ delivers => delivers
  | failed failure => exact fun _ _ delivers => delivers
  | call call next induction =>
      intro store same careful delivers fault allowed
      have goesOn : Ends library new installed before (next (perform library call store).1)
          (false || call.touches) (perform library call store).2 := by
        cases touches : call.touches with
        | true => exact ends_of_delivers delivers
        | false => exact induction _ ((sameBundles_perform touches).trans same) (careful.2 touches) delivers
      cases fault with
      | none => exact goesOn
      | some fault =>
          cases seeks : call.seeksActive with
          | false =>
              rcases careful.1 seeks with ⟨givesUp, alone⟩
              rcases givesUp fault.error with ⟨failure, failed⟩
              simp only [performWithFault, failed, Ends]
              exact unfailed.of_same ((alone fault.left).trans same)
          | true =>
              cases call with
              | probe file =>
                  have harmless := allowed rfl
                  simp only [CertificateCall.seeksActive] at seeks
                  simp only [withstands, ne_eq, decide_not, seeks, Bool.not_true, Bool.and_false,
                    Bool.or_false] at harmless
                  rw [fault_of_absent harmless]
                  exact goesOn
              | _ => cases seeks

section Care

variable {Result Later : Type} {store : CertificateStore Content}

theorem careful_bind {kept : Later -> CertificateStore Content -> Prop}
    {program : CertificateProgram Content Result} {later : Result -> CertificateProgram Content Later} :
    forall {store : CertificateStore Content},
      Careful library (fun result store => Careful library kept (later result) store) program store ->
        Careful library kept (program >>= later) store := by
  induction program with
  | done result => exact fun first => first
  | failed failure => exact fun _ => trivial
  | call call next induction =>
      intro store first
      refine ⟨fun seeks => ⟨fun error => ?_, (first.1 seeks).2⟩,
        fun untouched => induction _ (first.2 untouched)⟩
      rcases (first.1 seeks).1 error with ⟨failure, failed⟩
      exact ⟨failure, by simp only [failed, Program.bind]⟩

theorem careful_requirePrevious {kept : Unit -> CertificateStore Content -> Prop} (done : kept () store) :
    forall parts, Careful library kept (requirePrevious parts) store
  | [] => done
  | part :: rest => by
      refine ⟨fun _ => ⟨fun _ => ⟨_, rfl⟩, fun _ => SameBundles.refl store⟩, fun _ => ?_⟩
      change Careful library kept (if (store ⟨part, .previous⟩).isSome then requirePrevious rest
        else .failed (.bail "previous certificate bundle is not available")) store
      split
      · exact careful_requirePrevious done rest
      · trivial

/-- The first file that a swap writes is an active one. -/
theorem careful_swapWithPrevious {kept : Unit -> CertificateStore Content -> Prop}
    (part : BundlePart) (rest : List BundlePart) :
    Careful library kept (swapWithPrevious (part :: rest)) store := by
  refine ⟨fun _ => ⟨fun _ => ⟨_, rfl⟩, fun _ => SameBundles.refl store⟩, fun _ => ?_⟩
  simp only [perform]
  cases store ⟨part, .active⟩ with
  | none => trivial
  | some current =>
      refine ⟨fun _ => ⟨fun _ => ⟨_, rfl⟩, fun _ => SameBundles.refl store⟩, fun _ => ?_⟩
      simp only [perform]
      cases store ⟨part, .previous⟩ with
      | none => trivial
      | some old =>
          exact ⟨fun _ => ⟨fun _ => ⟨_, rfl⟩, fun _ => SameBundles.refl store⟩, nofun⟩

theorem careful_rename {kept : Unit -> CertificateStore Content -> Prop} (part : BundlePart) :
    Careful library kept (require (Fs.rename ⟨part, .new⟩ ⟨part, .active⟩)) store :=
  ⟨fun _ => ⟨fun _ => ⟨_, rfl⟩, fun _ => SameBundles.refl store⟩, nofun⟩

theorem careful_writeNew {kept : Unit -> CertificateStore Content -> Prop} (part : BundlePart)
    (content : Content) (done : forall store, kept () store) :
    Careful library kept (require (Fs.write ⟨part, .new⟩ content)) store := by
  refine ⟨fun _ => ⟨fun _ => ⟨_, rfl⟩, fun _ => SameBundles.refl store⟩, fun _ => ?_⟩
  refine ⟨fun _ => ⟨fun _ => ⟨_, rfl⟩, fun left => ?_⟩, fun _ => done _⟩
  simp only [leftBehind]
  split
  · exact sameBundles_update rfl _
  · exact SameBundles.refl _

/-- A replaced file is preserved first, or there is none. -/
theorem careful_replaceWithPrevious {kept : Unit -> CertificateStore Content -> Prop}
    (part : BundlePart) (content : Content) :
    Careful library kept (replaceWithPrevious part content) store := by
  refine ⟨fun _ => ⟨fun _ => ⟨_, rfl⟩, fun _ => SameBundles.refl store⟩, fun _ => ?_⟩
  refine ⟨nofun, fun _ => ?_⟩
  change Careful library kept (if (store ⟨part, .active⟩).isSome then
      requireFor "preserve previous certificate" (Fs.copy ⟨part, .active⟩ ⟨part, .previous⟩) >>= fun _ =>
        require (Fs.write ⟨part, .new⟩ content) >>= fun _ => require (Fs.rename ⟨part, .new⟩ ⟨part, .active⟩)
    else require (Fs.write ⟨part, .new⟩ content) >>= fun _ =>
      require (Fs.rename ⟨part, .new⟩ ⟨part, .active⟩)) store
  split
  next present =>
    rcases Option.isSome_iff_exists.mp present with ⟨current, here⟩
    refine ⟨fun _ => ⟨fun _ => ⟨_, rfl⟩, fun _ => SameBundles.refl store⟩, fun _ => ?_⟩
    simp only [perform, here]
    exact ⟨fun _ => ⟨fun _ => ⟨_, rfl⟩, fun _ => SameBundles.refl store⟩, nofun⟩
  next =>
    apply careful_bind
    apply careful_writeNew
    intro later
    exact careful_rename part

theorem careful_install {kept : Text -> CertificateStore Content -> Prop} (now : Int)
    (bundle : Bundle Content) (expected : Text) :
    Careful library kept (install library now bundle expected) store := by
  simp only [install]
  split
  · trivial
  · split
    · split
      · trivial
      · apply careful_bind
        exact careful_replaceWithPrevious .certificate bundle.certificate
    · trivial

theorem careful_rollback {kept : Text -> CertificateStore Content -> Prop} (now : Int) :
    Careful library kept (rollback library now) store := by
  apply careful_bind
  apply careful_requirePrevious
  apply careful_bind
  exact careful_swapWithPrevious .certificate _

end Care

section Results

variable {store : CertificateStore Content}

/-- A part replaced by another content, with the one before preserved. -/
def replaced (part : BundlePart) (content : Content) (store : CertificateStore Content) :
    CertificateStore Content :=
  fun file =>
    if file.part = part then
      match file.kind with
      | .active => some content
      | .previous => (store ⟨part, .active⟩).or (store ⟨part, .previous⟩)
      | .new => none
    else store file

/-- A part swapped with the one before. -/
def swapped (part : BundlePart) (store : CertificateStore Content) : CertificateStore Content :=
  fun file =>
    if file.part = part then
      match file.kind with
      | .active => store ⟨part, .previous⟩
      | .previous => store ⟨part, .active⟩
      | .new => store ⟨part, .new⟩
    else store file

theorem run_replaceWithPrevious (part : BundlePart) (content : Content) :
    (replaceWithPrevious part content).run (perform library) store =
      (.ok (), replaced part content store) := by
  cases present : store ⟨part, .active⟩ with
  | none =>
      have same : forall file, replaced part content store file =
          Function.update (Function.update (Function.update (Function.update store ⟨part, .new⟩
            (some library.empty)) ⟨part, .new⟩ (some content)) ⟨part, .active⟩ (some content))
            ⟨part, .new⟩ none file := by
        intro ⟨other, kind⟩
        by_cases here : other = part
        · subst here
          cases kind <;> simp [replaced, present, Function.update]
        · simp [replaced, Function.update, here]
      rw [funext same]
      simp [replaceWithPrevious, require, Fs.write, Program.ask, Program.run, perform, present]
  | some current =>
      have same : forall file, replaced part content store file =
          Function.update (Function.update (Function.update (Function.update (Function.update
            (Function.update store ⟨part, .previous⟩ (some library.empty)) ⟨part, .previous⟩
            (some current)) ⟨part, .new⟩ (some library.empty)) ⟨part, .new⟩ (some content))
            ⟨part, .active⟩ (some content)) ⟨part, .new⟩ none file := by
        intro ⟨other, kind⟩
        by_cases here : other = part
        · subst here
          cases kind <;> simp [replaced, present, Function.update]
        · simp [replaced, Function.update, here]
      rw [funext same]
      simp [replaceWithPrevious, require, requireFor, Fs.write, Fs.copy, Program.ask, Program.run,
        perform, present]

theorem run_swapWithPrevious {part : BundlePart} {rest : List BundlePart} {current old : Content}
    (active : store ⟨part, .active⟩ = some current) (previous : store ⟨part, .previous⟩ = some old) :
    (swapWithPrevious (part :: rest)).run (perform library) store =
      (swapWithPrevious rest).run (perform library) (swapped part store) := by
  have same : forall file, swapped part store file =
      Function.update (Function.update (Function.update (Function.update store ⟨part, .active⟩
        (some library.empty)) ⟨part, .active⟩ (some old)) ⟨part, .previous⟩ (some library.empty))
        ⟨part, .previous⟩ (some current) file := by
    intro ⟨other, kind⟩
    by_cases here : other = part
    · subst here
      cases kind <;> simp [swapped, active, previous, Function.update]
    · simp [swapped, Function.update, here]
  rw [funext same]
  simp [swapWithPrevious, require, Fs.write, Program.ask, Program.run, perform, active, previous]

theorem run_requirePrevious (parts : List BundlePart)
    (present : forall part, part ∈ parts -> Exists fun content => store ⟨part, .previous⟩ = some content) :
    (requirePrevious parts).run (perform library) store = (.ok (), store) := by
  induction parts with
  | nil => rfl
  | cons part rest induction =>
      rcases present part List.mem_cons_self with ⟨content, here⟩
      have later := induction fun other member => present other (List.mem_cons_of_mem part member)
      simpa [requirePrevious, Program.ask, Program.run, perform, here] using later

theorem run_requirePrevious_of_absent (absent : store ⟨.certificate, .previous⟩ = none) :
    (requirePrevious bundleParts).run (perform library) store =
      (.error (.bail "previous certificate bundle is not available"), store) := by
  simp [requirePrevious, bundleParts, Program.ask, Program.run, perform, absent]

/-- What is promised of a request that has changed nothing. -/
theorem Settled.of_whole (active : Whole before .active installed)
    (previous : Whole before .previous installed) (failed : Bool) :
    Settled installed before before failed :=
  ⟨active, previous, fun _ _ => rfl⟩

/-- An installation leaves the new bundle, and the one before it as the previous one. -/
theorem delivers_install (now : Int) (bundle : Bundle Content) (expected : Text)
    (active : Whole before .active installed) (previous : Whole before .previous installed) :
    Delivers library [bundle] installed before (install library now bundle expected) before := by
  have nothing := Settled.of_whole active previous true
  simp only [install]
  split
  · exact nothing
  · split
    · split
      · exact nothing
      · simp only [Delivers, Program.run_bind, run_replaceWithPrevious, Program.pure_eq, Program.run]
        refine ⟨Or.inr ⟨bundle, List.mem_cons_self, ?_⟩, ?_, fun impossible => (by cases impossible)⟩
        · intro part
          cases part <;> simp [replaced, Bundle.part]
        · have former : forall part, replaced .authority bundle.authority (replaced .key bundle.key
              (replaced .certificate bundle.certificate before)) ⟨part, .previous⟩ =
                (before ⟨part, .active⟩).or (before ⟨part, .previous⟩) := by
            intro part
            cases part <;> simp [replaced]
          rcases active with none | ⟨last, lastMember, parts⟩
          · rcases previous with noPrevious | ⟨last, lastMember, parts⟩
            · refine Or.inl fun part => ?_
              rw [former, none, noPrevious, Option.or_none]
            · refine Or.inr ⟨last, List.mem_cons_of_mem bundle lastMember, fun part => ?_⟩
              rw [former, none, parts, Option.none_or]
          · refine Or.inr ⟨last, List.mem_cons_of_mem bundle lastMember, fun part => ?_⟩
            rw [former, parts, Option.some_or]
    · exact nothing

/-- A rollback to a valid bundle exchanges the two bundles. -/
theorem delivers_rollback {now : Int} (valid : restorable library now before = true)
    (active : Whole before .active installed) (previous : Whole before .previous installed) :
    Delivers library [] installed before (rollback library now) before := by
  have nothing := Settled.of_whole active previous true
  rcases previous with absent | ⟨last, lastMember, lastParts⟩
  · simp only [Delivers, rollback, Program.run_bind, run_requirePrevious_of_absent (absent .certificate)]
    exact nothing
  · have present := @run_requirePrevious Content library before bundleParts fun part _ =>
      ⟨last.part part, lastParts part⟩
    rcases active with absent | ⟨current, currentMember, currentParts⟩
    · have stops : (swapWithPrevious bundleParts).run (perform library) before =
          (.error (.io .notFound), before) := by
        simp [swapWithPrevious, bundleParts, require, Program.ask, Program.run, perform, absent]
      simp only [Delivers, rollback, Program.run_bind, present, stops]
      exact nothing
    · have exchanged : Exists fun after => (swapWithPrevious bundleParts).run (perform library) before =
          (.ok (), after) /\ (forall part, after ⟨part, .active⟩ = some (last.part part)) /\
            forall part, after ⟨part, .previous⟩ = some (current.part part) := by
        refine ⟨swapped .authority (swapped .key (swapped .certificate before)), ?_, ?_, ?_⟩
        · simp only [bundleParts]
          rw [run_swapWithPrevious (currentParts .certificate) (lastParts .certificate),
            @run_swapWithPrevious _ _ _ .key _ (current.part .key) (last.part .key),
            @run_swapWithPrevious _ _ _ .authority _ (current.part .authority) (last.part .authority)]
          · rfl
          · simp [swapped, currentParts]
          · simp [swapped, lastParts]
          · simp [swapped, currentParts]
          · simp [swapped, lastParts]
        · intro part
          cases part <;> simp [swapped, lastParts]
        · intro part
          cases part <;> simp [swapped, currentParts]
      rcases exchanged with ⟨after, ran, nowActive, nowPrevious⟩
      simp only [restorable, currentParts, lastParts, Bool.and_eq_true] at valid
      rcases valid with ⟨⟨certificateText, authorityText⟩, validates⟩
      cases outcome : library.validate now (last.part .certificate) (last.part .authority) with
      | error failure => rw [outcome] at validates; cases validates
      | ok fingerprint =>
          have whole : Settled installed before after false :=
            ⟨Or.inr ⟨last, lastMember, nowActive⟩, Or.inr ⟨current, currentMember, nowPrevious⟩,
              fun impossible => (by cases impossible)⟩
          simpa [Delivers, rollback, Program.run_bind, present, ran, require, Program.ask, Program.run,
            perform, nowActive, certificateText, authorityText, outcome] using whole

end Results

end Programs

namespace CertificateManager

/-- At most one request is under way, and it will keep what is promised. -/
structure Orderly (library : CertificateLibrary Content) (manager : CertificateManager Content) : Prop where
  kept : forall failed before, manager.returned = some (failed, before) ->
    Settled manager.installed before manager.store failed
  alone : (manager.requests = [] /\ Whole manager.store .active manager.installed /\
      Whole manager.store .previous manager.installed) \/
    Exists fun request => manager.requests = [request] /\
      Ends library request.bundle.toList manager.installed request.before request.program request.touched
        manager.store

variable {library : CertificateLibrary Content} {manager : CertificateManager Content}

theorem Orderly.whole (orderly : Orderly library manager) (idle : manager.requests.isEmpty = true) :
    manager.requests = [] /\ Whole manager.store .active manager.installed /\
      Whole manager.store .previous manager.installed := by
  rcases orderly.alone with whole | ⟨request, pending, _⟩
  · exact whole
  · rw [pending] at idle
    cases idle

theorem Orderly.install (orderly : Orderly library manager) (idle : manager.requests.isEmpty = true)
    (now : Int) (bundle : Bundle Content) (expected : Text) :
    Orderly library (step library manager (.install now bundle expected)) := by
  rcases orderly.whole idle with ⟨none, active, previous⟩
  refine ⟨nofun, Or.inr ⟨_, by simp only [step, begin, none, List.nil_append]; rfl, ?_⟩⟩
  exact @ends_of_careful Content library _ _ _ (fun _ _ => True) _
    (Settled.of_whole active previous true) _ (SameBundles.refl manager.store)
    (careful_install now bundle expected) (delivers_install now bundle expected active previous)

theorem Orderly.rollback (orderly : Orderly library manager) (idle : manager.requests.isEmpty = true)
    {now : Int} (valid : restorable library now manager.store = true) :
    Orderly library (step library manager (.rollback now)) := by
  rcases orderly.whole idle with ⟨none, active, previous⟩
  refine ⟨nofun, Or.inr ⟨_, by simp only [step, begin, none, List.nil_append]; rfl, ?_⟩⟩
  exact @ends_of_careful Content library _ _ _ (fun _ _ => True) _
    (Settled.of_whole active previous true) _ (SameBundles.refl manager.store)
    (careful_rollback now) (delivers_rollback valid active previous)

theorem Orderly.proceed (orderly : Orderly library manager) (index : Nat)
    (fault : Option (Fault Content))
    (met : undisturbed library manager (.proceed index fault) = true) :
    Orderly library (step library manager (.proceed index fault)) := by
  rcases orderly.alone with ⟨idle, whole⟩ | ⟨request, pending, ends⟩
  · have same : step library manager (.proceed index fault) = { manager with returned := none } := by
      simp only [step, idle, List.getElem?_nil]
    rw [same]
    exact ⟨nofun, Or.inl ⟨idle, whole⟩⟩
  · cases index with
    | succ index =>
        have same : step library manager (.proceed (index + 1) fault) = { manager with returned := none } := by
          simp only [step, pending, List.getElem?_cons_succ, List.getElem?_nil]
        rw [same]
        exact ⟨nofun, Or.inr ⟨request, pending, ends⟩⟩
    | zero =>
        rcases request with ⟨program, bundle, before, touched⟩
        cases program with
        | done result =>
            simp only [step, pending, List.getElem?_cons_zero, List.eraseIdx_zero, List.tail_cons]
            refine ⟨?_, Or.inl ⟨rfl, ends.active, ends.previous⟩⟩
            intro failed original same
            cases same
            exact ends
        | failed failure =>
            simp only [step, pending, List.getElem?_cons_zero, List.eraseIdx_zero, List.tail_cons]
            refine ⟨?_, Or.inl ⟨rfl, ends.active, ends.previous⟩⟩
            intro failed original same
            cases same
            exact ends
        | call call next =>
            simp only [step, pending, List.getElem?_cons_zero, List.set_cons_zero]
            refine ⟨nofun, Or.inr ⟨_, rfl, ends fault ?_⟩⟩
            intro strikes
            cases fault with
            | none => cases strikes
            | some fault => simpa only [undisturbed, pending, List.getElem?_cons_zero] using met

theorem Orderly.step (action : CertificateAction Content)
    (met : undisturbed library manager action = true) (orderly : Orderly library manager) :
    Orderly library (manager.step library action) := by
  cases action with
  | install now bundle expected => exact orderly.install met now bundle expected
  | rollback now =>
      have both := Bool.and_eq_true_iff.mp met
      exact orderly.rollback both.1 both.2
  | proceed index fault => exact orderly.proceed index fault met

theorem orderly_start (active previous : Option (Bundle Content)) :
    Orderly library (start active previous) := by
  refine ⟨nofun, Or.inl ⟨rfl, ?_, ?_⟩⟩
  · cases active with
    | none => exact Or.inl fun part => rfl
    | some bundle => exact Or.inr ⟨bundle, List.mem_cons_self, fun part => rfl⟩
  · cases previous with
    | none => exact Or.inl fun part => rfl
    | some bundle =>
        exact Or.inr ⟨bundle, List.mem_append_right _ List.mem_cons_self, fun part => rfl⟩

/-- Requests that do not overlap, restore only valid bundles and meet faults only
before their first change never leave a mixture of bundles. -/
theorem neverMixed_of_undisturbed {active previous : Option (Bundle Content)}
    {run : List (CertificateAction Content)}
    (met : Machine.Along (step library) (fun manager action => undisturbed library manager action = true)
      (start active previous) run) : NeverMixed library active previous run := by
  intro front back split failed before returned
  rw [split, Machine.along_append] at met
  have orderly := Machine.along_invariant
    (fun manager action met orderly => Orderly.step action met orderly) (orderly_start active previous) met.1
  exact orderly.kept failed before returned

section Instances

/-- A library in which a certificate is valid under an authority of the same number. -/
def numbered : CertificateLibrary Nat where
  empty := 0
  isText _ := true
  validate _ certificate authority :=
    if certificate = authority then .ok [] else .error (.bail "certificate is not valid")
  identity _ := .ok ()

/-- An installation over another bundle, and all its calls. -/
def renewal : List (CertificateAction Nat) :=
  .install 0 ⟨2, 2, 2⟩ [] :: List.replicate 25 (.proceed 0 none)

/-- A request that fails at its first call, a renewal, and a return to the bundle before. -/
def renewalAndReturn : List (CertificateAction Nat) :=
  [.install 0 ⟨3, 3, 3⟩ [], .proceed 0 (some ⟨.other, 0⟩), .proceed 0 none] ++ renewal ++
    .rollback 0 :: List.replicate 24 (.proceed 0 none)

theorem neverMixed_of_undisturbed_renewal :
    (after numbered (some ⟨1, 1, 1⟩) none renewalAndReturn).returned.map Prod.fst = some false /\
      (after numbered (some ⟨1, 1, 1⟩) none renewalAndReturn).store ⟨.key, .active⟩ = some 1 /\
      NeverMixed numbered (some ⟨1, 1, 1⟩) none renewalAndReturn :=
  ⟨by decide +kernel, by decide +kernel, neverMixed_of_undisturbed (by decide +kernel)⟩

/-- The calls of an installation of which the one that moves the new key into its
place goes wrong. -/
def interrupted : List (CertificateAction Nat) :=
  .install 0 ⟨2, 2, 2⟩ [] :: List.replicate 15 (.proceed 0 none) ++
    [.proceed 0 (some ⟨.other, 0⟩), .proceed 0 none]

/-- One call that goes wrong leaves a new certificate beside the former key. -/
theorem interrupted_mixed :
    Not (forall (library : CertificateLibrary Nat) (active previous : Option (Bundle Nat))
      (run : List (CertificateAction Nat)), (run.filter CertificateAction.strikes).length <= 1 ->
        NeverMixed library active previous run) := by
  intro claimed
  have never := claimed numbered (some ⟨1, 1, 1⟩) none interrupted (by decide)
  have returned : Exists fun before =>
      (after numbered (some ⟨1, 1, 1⟩) none interrupted).returned = some (true, before) :=
    ⟨_, rfl⟩
  rcases returned with ⟨before, returned⟩
  have settled := never interrupted [] (List.append_nil interrupted).symm true before returned
  have certificate : (after numbered (some ⟨1, 1, 1⟩) none interrupted).store
      ⟨.certificate, .active⟩ = some 2 := by decide +kernel
  have key : (after numbered (some ⟨1, 1, 1⟩) none interrupted).store ⟨.key, .active⟩ = some 1 := by
    decide +kernel
  have bundles : (after numbered (some ⟨1, 1, 1⟩) none interrupted).installed = [⟨1, 1, 1⟩] := by
    decide +kernel
  rcases settled.active with none | ⟨bundle, member, parts⟩
  · rw [none .key] at key
    cases key
  · rw [bundles, List.mem_singleton] at member
    subst member
    cases certificate.symm.trans (parts .certificate)

end Instances

end CertificateManager

end Security
end Agapornis
