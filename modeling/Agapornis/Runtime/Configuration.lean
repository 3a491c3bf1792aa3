import Agapornis.Core.Value
import Agapornis.Storage.Confinement

namespace Agapornis
namespace Runtime

open Foundations Agapornis.Core Storage

/-!
# Generated configuration

A descriptor names files of a server and says what to put into each of them.
When a server is created, and again at every start, each named file that
exists is read, edited by the parser its entry asks for, and written back.
The target is the server root joined with the name; the check which the file
operations make is not made here, so this module compares the two.
-/

/-! ## The descriptor -/

/-- The parsers that edit a file.  Nothing below depends on what they do with
the bytes. -/
structure Parsers where
  file : Bytes -> List (Text × Value) -> Bytes
  properties : Bytes -> List (Text × Value) -> Bytes
  ini : Bytes -> List (Text × Value) -> Bytes
  json : Bytes -> List (Text × Value) -> Except Failure Bytes
  yaml : Bytes -> List (Text × Value) -> Except Failure Bytes
  xml : Bytes -> List (Text × Value) -> Except Failure Bytes

/-- How a descriptor is read: the JSON reader, its complaint about a document
that is no map, and the order in which a map is gone through. -/
structure Reading where
  fromStr : Text -> Except Failure Value
  notAMap : Value -> Failure
  order : List (Text × Value) -> List (Text × Value)
  order_perm : forall entries, (order entries).Perm entries

def maxConfigFileSize : Nat := 8 * 1024 * 1024

def resolveDaemonPlaceholders (dockerInterface : Text) : Value -> Value :=
  Value.mapText (fun text =>
    Text.replace "\x7b\x7bconfig.docker.network.interface\x7d\x7d".toList dockerInterface
      (Text.replace "\x7b\x7bconfig.docker.interface\x7d\x7d".toList dockerInterface text))

/-- The entries of a descriptor in the order in which they are applied. -/
def configEntries (reading : Reading) (json dockerInterface : Text) :
    Except Failure (List (Text × Value)) :=
  if (Text.trim json).isEmpty || Text.trim json == "\x7b\x7d".toList then .ok []
  else
    match reading.fromStr json with
    | .error failure => .error (.context "parse configuration-files descriptor" failure)
    | .ok descriptor =>
        match resolveDaemonPlaceholders dockerInterface descriptor with
        | .object entries => .ok (reading.order entries)
        | other => .error (reading.notAMap other)

/-! ## Applying it -/

/-- What a run leaves behind: its result, the tree, and the places whose files
it read or overwrote, in that order. -/
structure ConfigRun where
  result : Except Failure Unit
  tree : FileTree Text Bytes
  touched : List (List Text)

/-- The output of the parser with the given name. -/
def Parsers.apply (parsers : Parsers) (parser : Text) (bytes : Bytes)
    (find : List (Text × Value)) : Except Failure Bytes :=
  let lower := parser.map Char.toLower
  if lower == "file".toList then .ok (parsers.file bytes find)
  else if lower == "properties".toList then .ok (parsers.properties bytes find)
  else if lower == "ini".toList then .ok (parsers.ini bytes find)
  else if lower == "json".toList then parsers.json bytes find
  else if lower == "yaml".toList || lower == "yml".toList then parsers.yaml bytes find
  else if lower == "xml".toList then parsers.xml bytes find
  else if lower.isEmpty then .error (.bail "configuration parser is required")
  else .error (.bail ("unsupported configuration parser '" ++ String.ofList lower ++ "'"))

/-- Read a file, edit it and write it back. -/
def editFile (parsers : Parsers) (tree : FileTree Text Bytes) (target : List (Component Text))
    (place : List Text) (bytes : Bytes) (parser : Text) (find : List (Text × Value)) : ConfigRun :=
  match parsers.apply parser bytes find with
  | .error failure => ⟨.error failure, tree, [place]⟩
  | .ok output =>
      match openForWriting tree target output with
      | .error error => ⟨.error (.io error), tree, [place]⟩
      | .ok (written, edited) => ⟨.ok (), edited, [place, written]⟩

def applyConfigFile (parsers : Parsers) (tree : FileTree Text Bytes)
    (target : List (Component Text)) (config : Value) : ConfigRun :=
  match canonicalize tree target with
  | .error .notFound => ⟨.ok (), tree, []⟩
  | .error error => ⟨.error (.io error), tree, []⟩
  | .ok place =>
      match tree.node place, (config.get "find".toList).bind Value.asObject with
      | some (.file bytes), find =>
          if maxConfigFileSize < bytes.length then
            ⟨.error (.bail ("configuration file is " ++ toString bytes.length ++
              " bytes; maximum is " ++ toString maxConfigFileSize ++ " bytes")), tree, []⟩
          else
            match find with
            | none => ⟨.ok (), tree, []⟩
            | some find =>
                editFile parsers tree target place bytes
                  (((config.get "parser".toList).bind Value.asStr).getD []) find
      | _, none => ⟨.ok (), tree, []⟩
      | _, some _ => ⟨.error (.io .isADirectory), tree, []⟩

/-- Apply the entries one after the other, up to the first that fails. -/
def applyEntries (parsers : Parsers) (root : Text) :
    FileTree Text Bytes -> List (Text × Value) -> ConfigRun
  | tree, [] => ⟨.ok (), tree, []⟩
  | tree, (name, config) :: entries =>
      match Paths.relative name with
      | .error failure => ⟨.error failure, tree, []⟩
      | .ok names =>
          let first := applyConfigFile parsers tree (pathComponents root ++ names.map .normal) config
          match first.result with
          | .error failure =>
              ⟨.error (.context ("apply configuration descriptor to " ++
                String.ofList (Paths.joinText root names)) failure), first.tree, first.touched⟩
          | .ok () =>
              let rest := applyEntries parsers root first.tree entries
              { rest with touched := first.touched ++ rest.touched }

def applyConfigFiles (parsers : Parsers) (reading : Reading) (tree : FileTree Text Bytes)
    (root json dockerInterface : Text) : ConfigRun :=
  match configEntries reading json dockerInterface with
  | .error failure => ⟨.error failure, tree, []⟩
  | .ok entries => applyEntries parsers root tree entries

/-! ## What one entry touches -/

/-- An entry's target is a file that its run reads: one of admissible size, in
an entry which says what to find in it. -/
structure Edits (tree : FileTree Text Bytes) (target : List (Component Text)) (config : Value)
    (place : List Text) : Prop where
  found : canonicalize tree target = .ok place
  file : Exists fun bytes =>
    tree.node place = some (.file bytes) /\ bytes.length <= maxConfigFileSize
  finds : ((config.get "find".toList).bind Value.asObject).isSome

theorem openForWriting_found {tree : FileTree Text Bytes} {target : List (Component Text)}
    {place written : List Text} {output : Bytes} {edited : FileTree Text Bytes}
    (found : canonicalize tree target = .ok place)
    (opened : openForWriting tree target output = .ok (written, edited)) :
    written = place /\ edited = tree.overwrite place output := by
  rw [canonicalize] at found
  rw [openForWriting] at opened
  split at found
  · next resolved =>
      cases found
      rw [resolved] at opened
      simp only at opened
      split at opened
      · cases opened
      · cases opened
        exact ⟨rfl, rfl⟩
  · cases found
  · cases found

theorem editFile_touched (parsers : Parsers) {tree : FileTree Text Bytes}
    {target : List (Component Text)} {place : List Text} (bytes : Bytes) (parser : Text)
    (find : List (Text × Value)) (found : canonicalize tree target = .ok place)
    (touched : List Text) :
    touched ∈ (editFile parsers tree target place bytes parser find).touched <-> touched = place := by
  rw [editFile]
  split
  · exact List.mem_singleton
  · split
    · exact List.mem_singleton
    · next written edited opened =>
        rw [(openForWriting_found found opened).1]
        simp

theorem editFile_sameShape (parsers : Parsers) {tree : FileTree Text Bytes}
    {target : List (Component Text)} {place : List Text} (bytes : Bytes) (parser : Text)
    (find : List (Text × Value)) (found : canonicalize tree target = .ok place) :
    SameShape tree (editFile parsers tree target place bytes parser find).tree := by
  rw [editFile]
  split
  · exact SameShape.refl tree
  · split
    · exact SameShape.refl tree
    · next written edited opened =>
        rw [(openForWriting_found found opened).2]
        exact tree.overwrite_sameShape place _

/-- The places an entry touches are the place of its target, when that is a
file it edits. -/
theorem applyConfigFile_touched (parsers : Parsers) (tree : FileTree Text Bytes)
    (target : List (Component Text)) (config : Value) (place : List Text) :
    place ∈ (applyConfigFile parsers tree target config).touched <->
      Edits tree target config place := by
  rw [applyConfigFile]
  split
  · next missing =>
      refine iff_of_false List.not_mem_nil (fun edits => ?_)
      rw [edits.found] at missing
      cases missing
  · next error _ failed =>
      refine iff_of_false List.not_mem_nil (fun edits => ?_)
      rw [edits.found] at failed
      cases failed
  · next here found =>
      split
      · next bytes isFile =>
          split
          · next tooLarge =>
              refine iff_of_false List.not_mem_nil (fun edits => ?_)
              rcases edits.file with ⟨content, atPlace, small⟩
              have same := edits.found
              rw [found] at same
              cases same
              rw [isFile] at atPlace
              cases atPlace
              omega
          · next small =>
              split
              · next noFind =>
                  refine iff_of_false List.not_mem_nil (fun edits => ?_)
                  have finds := edits.finds
                  rw [noFind] at finds
                  cases finds
              · next find hasFind =>
                  rw [editFile_touched parsers bytes _ find found]
                  constructor
                  · intro same
                    subst same
                    exact ⟨found, ⟨bytes, isFile, Nat.le_of_not_lt small⟩, by rw [hasFind]; rfl⟩
                  · intro edits
                    have same := edits.found
                    rw [found] at same
                    exact (Except.ok.inj same).symm
      · next noFind _ =>
          refine iff_of_false List.not_mem_nil (fun edits => ?_)
          have finds := edits.finds
          rw [noFind] at finds
          cases finds
      · next notFile =>
          refine iff_of_false List.not_mem_nil (fun edits => ?_)
          rcases edits.file with ⟨content, atPlace, _⟩
          have same := edits.found
          rw [found] at same
          cases same
          exact absurd atPlace (notFile content)

theorem applyConfigFile_sameShape (parsers : Parsers) (tree : FileTree Text Bytes)
    (target : List (Component Text)) (config : Value) :
    SameShape tree (applyConfigFile parsers tree target config).tree := by
  rw [applyConfigFile]
  split
  · exact SameShape.refl tree
  · exact SameShape.refl tree
  · next here found =>
      split
      · split
        · exact SameShape.refl tree
        · split
          · exact SameShape.refl tree
          · exact editFile_sameShape parsers _ _ _ found
      · exact SameShape.refl tree
      · exact SameShape.refl tree

/-! ## What a run touches -/

theorem inside_sameShape {first second : FileTree Text Bytes} (same : SameShape first second)
    (root : List (Component Text)) (place : List Text) :
    Inside first root place <-> Inside second root place := by
  unfold Inside
  rw [canonicalize_sameShape same]

/-- The check of the file operations would let the name through. -/
def PassesFileCheck (tree : FileTree Text Bytes) (root name : Text) : Prop :=
  Exists fun path => confinedHostPath tree (pathComponents root) name true = .ok path

/-- For a target that exists, the check compares its canonical place. -/
theorem passesFileCheck_iff_inside {tree : FileTree Text Bytes} {root name : Text}
    {names place : List Text} (accepted : Paths.relative name = .ok names)
    (found : canonicalize tree (pathComponents root ++ names.map .normal) = .ok place) :
    PassesFileCheck tree root name <-> Inside tree (pathComponents root) place := by
  have joined : Paths.safeHostPath (pathComponents root) name =
      .ok (pathComponents root ++ names.map .normal) := by
    rw [Paths.safeHostPath]
    rw [accepted]
  unfold PassesFileCheck confinedHostPath Inside canonicalTarget
  rw [joined]
  simp only [found]
  cases canonicalize tree (pathComponents root) with
  | error error => simp
  | ok canonicalRoot =>
      by_cases below : canonicalRoot <+: place
      · simp [List.isPrefixOf_iff_prefix, below]
      · simp [List.isPrefixOf_iff_prefix, below]

/-- The entries which a run begins with, each with the tree it finds. -/
inductive Starts (parsers : Parsers) (root : Text) :
    FileTree Text Bytes -> List (Text × Value) -> FileTree Text Bytes -> Text -> Value -> Prop
  | first (tree : FileTree Text Bytes) (name : Text) (config : Value)
      (entries : List (Text × Value)) :
      Starts parsers root tree ((name, config) :: entries) tree name config
  | later (tree before : FileTree Text Bytes) (name laterName : Text) (config laterConfig : Value)
      (entries : List (Text × Value)) (names : List Text)
      (accepted : Paths.relative name = .ok names)
      (succeeded : (applyConfigFile parsers tree (pathComponents root ++ names.map .normal)
        config).result = .ok ())
      (rest : Starts parsers root (applyConfigFile parsers tree
        (pathComponents root ++ names.map .normal) config).tree entries before laterName laterConfig) :
      Starts parsers root tree ((name, config) :: entries) before laterName laterConfig

/-- Every entry that edits a file finds it where the check of the file
operations would let it through. -/
def EditsPassFileCheck (parsers : Parsers) (root : Text) (tree : FileTree Text Bytes)
    (entries : List (Text × Value)) : Prop :=
  forall before name config names place,
    Starts parsers root tree entries before name config ->
    Paths.relative name = .ok names ->
    Edits before (pathComponents root ++ names.map .normal) config place ->
    PassesFileCheck before root name

theorem editsPassFileCheck_cons (parsers : Parsers) {root name : Text} {tree : FileTree Text Bytes}
    {config : Value} {entries : List (Text × Value)} {names : List Text}
    (accepted : Paths.relative name = .ok names) :
    EditsPassFileCheck parsers root tree ((name, config) :: entries) <->
      (forall place, Edits tree (pathComponents root ++ names.map .normal) config place ->
        PassesFileCheck tree root name) /\
      ((applyConfigFile parsers tree (pathComponents root ++ names.map .normal) config).result =
          .ok () ->
        EditsPassFileCheck parsers root (applyConfigFile parsers tree
          (pathComponents root ++ names.map .normal) config).tree entries) := by
  constructor
  · intro passes
    constructor
    · intro place edits
      exact passes tree name config names place (.first tree name config entries) accepted edits
    · intro succeeded before laterName laterConfig laterNames place starts
      exact passes before laterName laterConfig laterNames place
        (.later tree before name laterName config laterConfig entries names accepted succeeded starts)
  · rintro ⟨first, rest⟩ before laterName laterConfig laterNames place starts laterAccepted edits
    cases starts with
    | first =>
        rw [accepted] at laterAccepted
        cases laterAccepted
        exact first place edits
    | later _ _ _ _ _ _ _ names again succeeded starts =>
        rw [accepted] at again
        cases again
        exact rest succeeded before laterName laterConfig laterNames place starts laterAccepted edits

theorem applyEntries_touched_inside (parsers : Parsers) (root : Text)
    (entries : List (Text × Value)) (base tree : FileTree Text Bytes) (same : SameShape base tree) :
    (forall place, place ∈ (applyEntries parsers root tree entries).touched ->
        Inside base (pathComponents root) place) <->
      EditsPassFileCheck parsers root tree entries := by
  induction entries generalizing tree with
  | nil =>
      refine iff_of_true (fun place impossible => by cases impossible) ?_
      intro before name config names place starts
      cases starts
  | cons entry entries ih =>
      rcases entry with ⟨name, config⟩
      cases accepted : Paths.relative name with
      | error failure =>
          have untouched : (applyEntries parsers root tree ((name, config) :: entries)).touched = [] := by
            simp only [applyEntries, accepted]
          rw [untouched]
          refine iff_of_true (fun place impossible => by cases impossible) ?_
          intro before laterName laterConfig names place starts laterAccepted
          cases starts with
          | first =>
              rw [accepted] at laterAccepted
              cases laterAccepted
          | later _ _ _ _ _ _ _ names again =>
              rw [accepted] at again
              cases again
      | ok names =>
          rw [editsPassFileCheck_cons parsers accepted]
          have firstInside : (forall place, place ∈ (applyConfigFile parsers tree
                (pathComponents root ++ names.map .normal) config).touched ->
              Inside base (pathComponents root) place) <->
              forall place, Edits tree (pathComponents root ++ names.map .normal) config place ->
                PassesFileCheck tree root name := by
            refine forall_congr' (fun place => ?_)
            rw [applyConfigFile_touched]
            refine forall_congr' (fun edits => ?_)
            rw [passesFileCheck_iff_inside accepted edits.found, inside_sameShape same]
          cases outcome : (applyConfigFile parsers tree
              (pathComponents root ++ names.map .normal) config).result with
          | error failure =>
              simp only [applyEntries, accepted, outcome]
              rw [firstInside]
              exact ⟨fun first => ⟨first, fun impossible => by cases impossible⟩, And.left⟩
          | ok value =>
              have later := ih _ (same.trans (applyConfigFile_sameShape parsers tree
                (pathComponents root ++ names.map .normal) config))
              simp only [applyEntries, accepted, outcome, List.mem_append, or_imp, forall_and]
              rw [firstInside, later]
              exact and_congr_right (fun _ => ⟨fun rest _ => rest, fun rest => rest trivial⟩)

/-- Every file that a run reads or overwrites lies below the server root
exactly when each file it edits would pass the check of the file operations. -/
theorem applyConfigFiles_touched_inside_iff (parsers : Parsers) (reading : Reading)
    (tree : FileTree Text Bytes) (root json dockerInterface : Text) :
    (forall place, place ∈ (applyConfigFiles parsers reading tree root json dockerInterface).touched ->
        Inside tree (pathComponents root) place) <->
      forall entries, configEntries reading json dockerInterface = .ok entries ->
        EditsPassFileCheck parsers root tree entries := by
  rw [applyConfigFiles]
  split
  · next failed =>
      rw [failed]
      exact iff_of_true (fun place impossible => by cases impossible)
        (fun entries impossible => by cases impossible)
  · next entries described =>
      rw [described, applyEntries_touched_inside parsers root entries tree tree (SameShape.refl tree)]
      exact ⟨fun passes other same => by cases same; exact passes, fun all => all entries rfl⟩

/-- A server directory in which the process has made a link to a file of the
host under the name of a configuration file. -/
def linkedConfigTree : FileTree Text Bytes :=
  ((((FileTree.bare Text Bytes).plant [] "etc".toList .directory).plant [] "srv".toList .directory).plant
    ["etc".toList] "passwd".toList (.file [114, 10])).plant
    ["srv".toList] "c".toList (.link ⟨true, [.normal "etc".toList, .normal "passwd".toList]⟩)

/-- Parsers which return the bytes as they are, as the file parser does with
nothing to find. -/
def unchangedParsers : Parsers where
  file bytes _ := bytes
  properties bytes _ := bytes
  ini bytes _ := bytes
  json bytes _ := .ok bytes
  yaml bytes _ := .ok bytes
  xml bytes _ := .ok bytes

/-- The reader at the text of a descriptor for the file `c`. -/
def linkedConfigReading : Reading where
  fromStr _ := .ok (.object [("c".toList,
    .object [("find".toList, .object []), ("parser".toList, .string "file".toList)])])
  notAMap _ := .bail "invalid type"
  order entries := entries
  order_perm entries := List.Perm.refl entries

/-- The file of the host is read and overwritten through the link. -/
theorem edits_through_linked_config :
    Not (forall (parsers : Parsers) (reading : Reading) (tree : FileTree Text Bytes)
      (root json dockerInterface : Text) (place : List Text),
      place ∈ (applyConfigFiles parsers reading tree root json dockerInterface).touched ->
      Inside tree (pathComponents root) place) := by
  intro confinement
  have touched : ["etc".toList, "passwd".toList] ∈ (applyConfigFiles unchangedParsers
      linkedConfigReading linkedConfigTree "/srv".toList
      "\x7b\"c\":\x7b\"find\":\x7b\x7d,\"parser\":\"file\"\x7d\x7d".toList
      "172.18.0.1".toList).touched := by
    decide +kernel
  rcases confinement _ _ _ _ _ _ _ touched with ⟨canonicalRoot, found, below⟩
  have rootPlace : canonicalize linkedConfigTree (pathComponents "/srv".toList) =
      .ok ["srv".toList] := by decide
  rw [rootPlace] at found
  cases found
  revert below
  decide

end Runtime
end Agapornis
