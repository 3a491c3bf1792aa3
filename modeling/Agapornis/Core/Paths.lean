import Agapornis.Core.Failure
import Agapornis.Foundations.PathText

namespace Agapornis
namespace Core

open Foundations

/-!
# Safe path resolution for server-owned data

Requested paths are texts chosen by a client.  `relative` reads such a text
the way the standard library's path components do, backslashes counting as
slashes, and keeps only plain names; both the host path and the container
path of a request are built from its result.
-/

namespace Paths

/-- A component of a path as the standard library iterates over it. -/
inductive PathPart where
  | rootDir
  | curDir
  | parentDir
  | normal (value : Text)
  deriving DecidableEq, Repr

/-- The component of one slash-separated piece, if it counts as one. -/
def pathPart : Text -> Option PathPart
  | [] => none
  | ['.'] => none
  | ['.', '.'] => some .parentDir
  | value => some (.normal value)

/-- The id of a server is one plain name. -/
def validateId (id : Text) : Except Failure Unit :=
  refuseIf
    (id.isEmpty || id = ['.'] || id = ['.', '.'] || id.contains '/' || id.contains '\\' ||
      id.contains (Char.ofNat 0))
    "invalid server id"

/-- The components of a path text.  A dot counts only when it comes first. -/
def components (path : Text) : List PathPart :=
  if path.head? = some '/' then
    .rootDir :: (path.splitOn '/').filterMap pathPart
  else if (path.splitOn '/').head? = some ['.'] then
    .curDir :: (path.splitOn '/').filterMap pathPart
  else
    (path.splitOn '/').filterMap pathPart

/-- The loop of `relative` over the enumerated components. -/
def relativeLoop : Nat -> List Text -> List PathPart -> Except Failure (List Text)
  | _, output, [] => .ok output
  | index, output, .normal value :: rest => relativeLoop (index + 1) (output ++ [value]) rest
  | index, output, .curDir :: rest => relativeLoop (index + 1) output rest
  | index, output, .rootDir :: rest =>
      if index = 0 then relativeLoop (index + 1) output rest
      else .error (.bail "invalid file path")
  | _, _, .parentDir :: _ => .error (.bail "invalid file path")

/-- The names a requested path consists of, or a failure for a path that
leaves the directory it starts in. -/
def relative (requested : Text) : Except Failure (List Text) :=
  relativeLoop 0 [] (components (Text.replaceChar '\\' '/' requested))

/-- The path below a host directory which a request names. -/
def safeHostPath (root : List (Component Text)) (requested : Text) :
    Except Failure (List (Component Text)) :=
  match relative requested with
  | .error failure => .error failure
  | .ok names => .ok (root ++ names.map .normal)

/-- The text of a relative path. -/
def display (names : List Text) : Text :=
  ['/'].intercalate names

/-- The text of a host path put together from the root and the requested
names; a root that does not end in a slash gets one. -/
def joinText (root : Text) (names : List Text) : Text :=
  if root.getLast? = some '/' \/ root = [] then root ++ display names
  else root ++ '/' :: display names

/-- The path below a container directory which a request names. -/
def containerPath (root requested : Text) : Except Failure Text :=
  match relative requested with
  | .error failure => .error failure
  | .ok names =>
      let rel := Text.replaceChar '\\' '/' (display names)
      .ok (if rel.isEmpty then root
        else (root.reverse.dropWhile (· = '/')).reverse ++ '/' :: rel)

example : relative "/safe/config.yml".toList = .ok ["safe".toList, "config.yml".toList] := by
  decide

example : relative "/safe/../../secret".toList = .error (.bail "invalid file path") := by decide

/-! ## What the accepted names look like -/

/-- A name as `relative` returns it. -/
structure RequestedName (name : Text) : Prop extends ProperName name where
  no_backslash : '\\' ∉ name

theorem pathPart_normal {piece value : Text} (part : pathPart piece = some (.normal value)) :
    value = piece /\ piece ≠ [] /\ piece ≠ ['.'] /\ piece ≠ ['.', '.'] := by
  unfold pathPart at part
  split at part
  · cases part
  · cases part
  · cases part
  · next notEmpty notCurrent notParent =>
      cases part
      exact ⟨rfl, notEmpty, notCurrent, notParent⟩

theorem normal_mem_components {path value : Text} (member : .normal value ∈ components path) :
    ProperName value /\ forall character, character ∈ value -> character ∈ path := by
  have inPieces : .normal value ∈ (path.splitOn '/').filterMap pathPart := by
    rw [components] at member
    split at member
    · exact (List.mem_cons.mp member).resolve_left (fun impossible => by cases impossible)
    · split at member
      · exact (List.mem_cons.mp member).resolve_left (fun impossible => by cases impossible)
      · exact member
  rcases List.mem_filterMap.mp inPieces with ⟨piece, isPiece, part⟩
  rcases pathPart_normal part with ⟨same, notEmpty, notCurrent, notParent⟩
  subst same
  refine ⟨⟨notEmpty, notCurrent, notParent, ?_⟩, ?_⟩
  · intro slash
    exact (mem_splitOn isPiece slash).2 rfl
  · intro character inside
    exact (mem_splitOn isPiece inside).1

/-- The loop adds nothing but the names among the components. -/
theorem relativeLoop_mem {index : Nat} {output names : List Text} {parts : List PathPart}
    (finished : relativeLoop index output parts = .ok names) {name : Text} (member : name ∈ names) :
    name ∈ output \/ .normal name ∈ parts := by
  induction parts generalizing index output with
  | nil =>
      cases finished
      exact Or.inl member
  | cons part rest ih =>
      cases part with
      | normal value =>
          rcases ih finished with earlier | later
          · rcases List.mem_append.mp earlier with old | new
            · exact Or.inl old
            · rw [List.mem_singleton.mp new]
              exact Or.inr List.mem_cons_self
          · exact Or.inr (List.mem_cons_of_mem _ later)
      | curDir =>
          rcases ih finished with earlier | later
          · exact Or.inl earlier
          · exact Or.inr (List.mem_cons_of_mem _ later)
      | rootDir =>
          rw [relativeLoop] at finished
          split at finished
          · rcases ih finished with earlier | later
            · exact Or.inl earlier
            · exact Or.inr (List.mem_cons_of_mem _ later)
          · cases finished
      | parentDir => cases finished

theorem relative_names {requested : Text} {names : List Text}
    (accepted : relative requested = .ok names) :
    forall name, name ∈ names -> RequestedName name := by
  intro name member
  rcases relativeLoop_mem accepted member with impossible | part
  · cases impossible
  · rcases normal_mem_components part with ⟨proper, characters⟩
    refine ⟨proper, fun backslash => ?_⟩
    exact Text.not_mem_replaceChar (by decide) requested (characters _ backslash)

/-- The loop loses no name that is among the components. -/
theorem relativeLoop_complete {index : Nat} {output names : List Text} {parts : List PathPart}
    (finished : relativeLoop index output parts = .ok names) {name : Text}
    (member : name ∈ output \/ .normal name ∈ parts) : name ∈ names := by
  induction parts generalizing index output with
  | nil =>
      cases finished
      exact member.resolve_right (fun impossible => by cases impossible)
  | cons part rest ih =>
      cases part with
      | normal value =>
          refine ih finished ?_
          rcases member with old | inParts
          · exact Or.inl (List.mem_append_left [value] old)
          · rcases List.mem_cons.mp inParts with same | later
            · cases same
              exact Or.inl (List.mem_append_right output List.mem_cons_self)
            · exact Or.inr later
      | curDir =>
          refine ih finished (member.imp_right (fun inParts => ?_))
          exact (List.mem_cons.mp inParts).resolve_left (fun impossible => by cases impossible)
      | rootDir =>
          rw [relativeLoop] at finished
          split at finished
          · refine ih finished (member.imp_right (fun inParts => ?_))
            exact (List.mem_cons.mp inParts).resolve_left (fun impossible => by cases impossible)
          · cases finished
      | parentDir => cases finished

theorem mem_display {names : List Text} {character : Char} (different : character ≠ '/') :
    character ∈ display names <-> Exists fun name => name ∈ names /\ character ∈ name := by
  rw [display]
  induction names with
  | nil => simp [List.intercalate]
  | cons first rest ih =>
      cases rest with
      | nil => simp [List.intercalate]
      | cons second rest =>
          have parts : character ∈ ['/'].intercalate (first :: second :: rest) <->
              character ∈ first \/ character ∈ ['/'].intercalate (second :: rest) := by
            simp [List.intercalate, different]
          rw [parts, ih]
          simp only [List.mem_cons, exists_eq_or_imp]

/-- Normalisation neither adds nor drops a character other than slashes,
backslashes and dots. -/
theorem mem_display_relative {requested : Text} {names : List Text}
    (accepted : relative requested = .ok names) {character : Char} (notSlash : character ≠ '/')
    (notBackslash : character ≠ '\\') (notDot : character ≠ '.') :
    character ∈ display names <-> character ∈ requested := by
  rw [mem_display notSlash, ← Text.mem_replaceChar requested notBackslash notSlash]
  constructor
  · rintro ⟨name, member, inside⟩
    rcases relativeLoop_mem accepted member with impossible | part
    · cases impossible
    · exact (normal_mem_components part).2 character inside
  · intro member
    rcases exists_mem_splitOn member notSlash with ⟨piece, isPiece, inside⟩
    refine ⟨piece, relativeLoop_complete accepted (Or.inr ?_), inside⟩
    have part : pathPart piece = some (.normal piece) := by
      unfold pathPart
      split
      · cases inside
      · exact absurd (List.mem_singleton.mp inside) notDot
      · simp only [List.mem_cons, List.not_mem_nil, or_false, or_self] at inside
        exact absurd inside notDot
      · rfl
    have inPieces := List.mem_filterMap.mpr ⟨piece, isPiece, part⟩
    rw [components]
    split
    · exact List.mem_cons_of_mem _ inPieces
    · split
      · exact List.mem_cons_of_mem _ inPieces
      · exact inPieces

theorem display_append (front : List Text) (last : Text) (nonempty : front ≠ []) :
    display (front ++ [last]) = display front ++ '/' :: last := by
  unfold display
  induction front with
  | nil => exact absurd rfl nonempty
  | cons first rest ih =>
      cases rest with
      | nil => simp [List.intercalate]
      | cons second rest =>
          have inner := ih (List.cons_ne_nil second rest)
          simp only [List.intercalate, List.cons_append, List.intersperse_cons_cons,
            List.flatten_cons] at inner ⊢
          rw [inner]
          simp only [List.nil_append, List.append_assoc, List.cons_append]

theorem display_eq_nil {names : List Text} (requested : forall name, name ∈ names -> RequestedName name) :
    display names = [] <-> names = [] := by
  constructor
  · intro empty
    have read := pathComponents_intercalate (fun name member => (requested name member).toProperName)
    have shown : ['/'].intercalate names = [] := empty
    rw [shown, pathComponents_nil] at read
    exact List.map_eq_nil_iff.mp read.symm
  · intro empty
    rw [empty]
    rfl

theorem no_backslash_display {names : List Text}
    (requested : forall name, name ∈ names -> RequestedName name) : '\\' ∉ display names := by
  induction names using List.reverseRecOn with
  | nil => intro impossible; cases impossible
  | append_singleton front last ih =>
      have lastName := requested last (by simp)
      by_cases empty : front = []
      · subst empty
        simpa [display] using lastName.no_backslash
      · rw [display_append front last empty]
        intro member
        rcases List.mem_append.mp member with earlier | later
        · exact ih (fun name inside => requested name (List.mem_append_left [last] inside)) earlier
        · rcases List.mem_cons.mp later with isSlash | inLast
          · cases isSlash
          · exact lastName.no_backslash inLast

theorem relativeLoop_normal (names : List Text) (index : Nat) (output : List Text) :
    relativeLoop index output (names.map .normal) = .ok (output ++ names) := by
  induction names generalizing index output with
  | nil => rw [List.map_nil, relativeLoop, List.append_nil]
  | cons name names ih => rw [List.map_cons, relativeLoop, ih, List.append_assoc, List.singleton_append]

/-- The text of accepted names is accepted as the same names. -/
theorem relative_display {names : List Text} (requested : forall name, name ∈ names -> RequestedName name) :
    relative (display names) = .ok names := by
  have noBackslash := no_backslash_display requested
  rw [relative]
  rw [Text.replaceChar_of_not_mem noBackslash]
  cases names with
  | nil => rfl
  | cons first rest =>
      have noSlash : forall name, name ∈ first :: rest -> '/' ∉ name :=
        fun name member => (requested name member).no_slash
      have firstName := requested first List.mem_cons_self
      have pieces : (display (first :: rest)).splitOn '/' = first :: rest :=
        List.splitOn_intercalate '/' noSlash (List.cons_ne_nil first rest)
      have parts : (first :: rest).filterMap pathPart = (first :: rest).map .normal := by
        apply List.filterMap_eq_map_iff_forall_eq_some.mpr
        intro name member
        have proper := requested name member
        unfold pathPart
        split
        · exact absurd rfl proper.nonempty
        · exact absurd rfl proper.not_current
        · exact absurd rfl proper.not_parent
        · rfl
      have notAbsolute : Not ((display (first :: rest)).head? = some '/') := by
        cases first with
        | nil => exact absurd rfl firstName.nonempty
        | cons head tail =>
            have shown : (display ((head :: tail) :: rest)).head? = some head := by
              cases rest <;> simp [display, List.intercalate]
            rw [shown]
            intro slash
            exact firstName.no_slash (Option.some.inj slash ▸ List.mem_cons_self)
      have notCurrent : Not (((display (first :: rest)).splitOn '/').head? = some ['.']) := by
        rw [pieces, List.head?_cons]
        intro dot
        exact firstName.not_current (Option.some.inj dot)
      rw [components]
      rw [if_neg notAbsolute, if_neg notCurrent, pieces, parts, relativeLoop_normal, List.nil_append]

theorem pathComponents_joinText (root : Text) {names : List Text}
    (requested : forall name, name ∈ names -> RequestedName name) :
    pathComponents (joinText root names) = pathComponents root ++ names.map .normal := by
  have shown : pathComponents (display names) = names.map .normal :=
    pathComponents_intercalate (fun name member => (requested name member).toProperName)
  rw [joinText]
  split
  · next closed =>
      rcases closed with slash | empty
      · rcases List.getLast?_eq_some_iff.mp slash with ⟨front, split⟩
        rw [split, List.append_assoc, List.singleton_append, pathComponents_append,
          pathComponents_append, pathComponents_nil, List.append_nil, shown]
      · rw [empty, List.nil_append, pathComponents_nil, List.nil_append, shown]
  · rw [pathComponents_append, shown]

theorem mem_joinText {root : Text} {names : List Text} {character : Char}
    (different : character ≠ '/') :
    character ∈ joinText root names <-> character ∈ root \/ character ∈ display names := by
  rw [joinText]
  split
  · exact List.mem_append
  · rw [List.mem_append, List.mem_cons, or_iff_right different]

/-- The container directory as the commands spell it. -/
def slashed (path : Text) : Text :=
  Text.replaceChar '\\' '/' path

theorem slashed_append (front back : Text) : slashed (front ++ back) = slashed front ++ slashed back :=
  List.map_append

/-- Trimming slashes before or after backslashes become slashes leads to the
same components. -/
theorem pathComponents_slashed_trimEnd (path : Text) :
    pathComponents (slashed ((path.reverse.dropWhile (· = '/')).reverse)) =
      pathComponents (slashed path) := by
  induction path using List.reverseRecOn with
  | nil => rfl
  | append_singleton front last ih =>
      by_cases slash : last = '/'
      · subst slash
        have onlySlash : slashed ['/'] = ['/'] := by decide
        rw [List.reverse_concat, List.dropWhile_cons_of_pos (by simp), ih, slashed_append, onlySlash,
          pathComponents_append, pathComponents_nil, List.append_nil]
      · rw [List.reverse_concat, List.dropWhile_cons_of_neg (by simpa using slash), List.reverse_cons,
          List.reverse_reverse]

/-- The text of a container path, cut at its last slash when it names
something below the container directory. -/
theorem containerPath_names {root requested target : Text}
    (joined : containerPath root requested = .ok target) :
    Exists fun names => relative requested = .ok names /\
      (names = [] -> target = root) /\
      forall front last, names = front ++ [last] -> Exists fun above =>
        slashed target = above ++ '/' :: last /\
          pathComponents above = pathComponents (slashed root) ++ front.map .normal := by
  rw [containerPath] at joined
  split at joined
  · cases joined
  · next names accepted =>
      have requestedNames := relative_names accepted
      have plain : Text.replaceChar '\\' '/' (display names) = display names :=
        Text.replaceChar_of_not_mem (no_backslash_display requestedNames)
      cases joined
      refine ⟨names, accepted, ?_, ?_⟩
      · intro empty
        rw [plain, (display_eq_nil requestedNames).mpr empty]
        rfl
      · intro front last split
        have notEmpty : names ≠ [] := by rw [split]; simp
        have shown : (display names).isEmpty = false := by
          cases empty : display names with
          | nil => exact absurd ((display_eq_nil requestedNames).mp empty) notEmpty
          | cons => rfl
        have lastName := requestedNames last (by rw [split]; simp)
        have plainRel : slashed ('/' :: display names) = '/' :: display names :=
          Text.replaceChar_of_not_mem (fun member => by
            rcases List.mem_cons.mp member with isSlash | inside
            · cases isSlash
            · exact no_backslash_display requestedNames inside)
        rw [plain, shown, if_neg Bool.false_ne_true, slashed_append, plainRel]
        by_cases single : front = []
        · subst single
          refine ⟨slashed ((root.reverse.dropWhile (· = '/')).reverse), ?_, ?_⟩
          · rw [split]
            simp [display]
          · rw [pathComponents_slashed_trimEnd]
            simp
        · refine ⟨slashed ((root.reverse.dropWhile (· = '/')).reverse) ++ '/' :: display front, ?_, ?_⟩
          · rw [split, display_append front last single]
            simp
          · rw [pathComponents_append, pathComponents_slashed_trimEnd]
            exact congrArg (pathComponents (slashed root) ++ ·)
              (pathComponents_intercalate (fun name member =>
                (requestedNames name (by rw [split]; exact List.mem_append_left _ member)).toProperName))

end Paths

end Core
end Agapornis
