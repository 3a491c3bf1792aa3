import Agapornis.Runtime.Ports

namespace Agapornis
namespace Runtime

open Foundations Agapornis.Core

/-!
# Mappings of creations and of updates

A creation and an update read the same list of mappings, each for itself.  A
creation takes more of them: blanks and capitals, a third protocol, the port
zero, ports that are named twice, and any number of mappings.
-/

/-! ## How a container port is written -/

/-- A port in the plain form, a number and one of two protocols, with its key. -/
structure PlainPort (internal key : Text) : Prop where
  written : Exists fun digits => Exists fun number => Exists fun protocol =>
    Text.parseUnsigned 65535 digits = some number /\ 0 < number /\
      protocol ∈ ["tcp".toList, "udp".toList] /\
      (internal = digits /\ protocol = "tcp".toList \/ internal = digits ++ '/' :: protocol) /\
      key = Text.decimal number ++ '/' :: protocol

/-- A port in the free form, with its key: around it there may be blanks, and
the protocol may be any of three in capitals. -/
structure FreePort (internal key : Text) : Prop where
  written : Exists fun digits => Exists fun number => Exists fun protocol =>
    Text.parseUnsigned 65535 digits = some number /\
      protocol.map Char.toLower ∈ ["tcp".toList, "udp".toList, "sctp".toList] /\
      (Text.trim internal = digits /\ protocol = "tcp".toList \/
        Text.trim internal = digits ++ '/' :: protocol) /\
      key = Text.decimal number ++ '/' :: protocol.map Char.toLower

theorem slash_not_mem_digits {limit number : Nat} {digits : Text}
    (read : Text.parseUnsigned limit digits = some number) : '/' ∉ digits := by
  intro member
  rcases (Text.parseUnsigned_characters read).2 '/' member with digit | sign
  · exact absurd digit (by decide)
  · exact absurd sign (by decide)

theorem slash_not_mem_protocol {protocol : Text}
    (known : protocol.map Char.toLower ∈ ["tcp".toList, "udp".toList, "sctp".toList]) :
    '/' ∉ protocol := by
  intro member
  have lower : '/' ∈ protocol.map Char.toLower := List.mem_map.mpr ⟨'/', member, by decide⟩
  simp only [List.mem_cons, List.not_mem_nil, or_false] at known
  rcases known with same | same | same <;> rw [same] at lower <;> exact absurd lower (by decide)

theorem parseU16_eq_ok {digits : Text} {number : Nat} :
    parseU16 digits = .ok number <-> Text.parseUnsigned 65535 digits = some number := by
  unfold parseU16
  cases Text.parseUnsigned 65535 digits <;> simp

theorem mappedPort_eq_ok {internal key : Text} : mappedPort internal = .ok key <-> PlainPort internal key := by
  unfold mappedPort
  constructor
  · intro accepted
    dsimp only at accepted
    split at accepted
    · cases accepted
    · next digits protocol parts =>
        rcases bind_eq_ok.mp accepted with ⟨number, read, accepted⟩
        rcases bind_eq_ok.mp accepted with ⟨_, known, same⟩
        have parsed := parseU16_eq_ok.mp (withContext_eq_ok.mp read)
        have checks : Not (number = 0) /\ protocol ∈ ["tcp".toList, "udp".toList] := by
          have passed := refuseIf_eq_ok.mp known
          rw [Bool.or_eq_false_iff, beq_eq_false_iff_ne, decide_eq_false_iff_not, not_not] at passed
          exact passed
        refine ⟨digits, number, protocol, parsed, Nat.pos_of_ne_zero checks.1, checks.2, ?_,
          (Except.ok.inj same).symm⟩
        rcases Text.splitOnce_eq_some.mp parts with ⟨_, whole⟩
        split at whole
        · exact Or.inr whole
        · next noSlash =>
            left
            have plain : '/' ∉ internal := by simpa using noSlash
            have parts := Text.splitOnce_append plain "tcp".toList
            have same := (Text.splitOnce_eq_some.mpr ⟨slash_not_mem_digits parsed, whole⟩).symm.trans parts
            cases same
            exact ⟨rfl, rfl⟩
  · rintro ⟨digits, number, protocol, read, positive, known, written, same⟩
    have normalized : (if internal.contains '/' then internal else internal ++ "/tcp".toList) =
        digits ++ '/' :: protocol := by
      rcases written with ⟨plain, tcp⟩ | whole
      · rw [plain, tcp, if_neg (by simpa using slash_not_mem_digits read)]
        rfl
      · rw [whole, if_pos (by simp)]
    dsimp only
    rw [normalized, Text.splitOnce_append (slash_not_mem_digits read)]
    refine bind_eq_ok.mpr ⟨number, withContext_eq_ok.mpr (parseU16_eq_ok.mpr read), ?_⟩
    refine bind_eq_ok.mpr ⟨(), refuseIf_eq_ok.mpr ?_, by rw [same]⟩
    rw [Bool.or_eq_false_iff, beq_eq_false_iff_ne, decide_eq_false_iff_not, not_not]
    exact ⟨Nat.ne_of_gt positive, known⟩

theorem normalizeContainerPort_eq_ok {internal key : Text} :
    normalizeContainerPort internal = .ok key <-> FreePort internal key := by
  unfold normalizeContainerPort
  constructor
  · intro accepted
    rcases bind_eq_ok.mp accepted with ⟨_, _, accepted⟩
    rcases bind_eq_ok.mp accepted with ⟨number, read, accepted⟩
    rcases bind_eq_ok.mp accepted with ⟨_, known, same⟩
    have parsed := parseU16_eq_ok.mp (withContext_eq_ok.mp read)
    have protocolKnown := not_not.mp (of_decide_eq_false (refuseIf_eq_ok.mp known))
    refine ⟨_, number, _, parsed, protocolKnown, ?_, (Except.ok.inj same).symm⟩
    cases parts : Text.rsplitOnce '/' (Text.trim internal) with
    | none => exact Or.inl ⟨rfl, rfl⟩
    | some pair => exact Or.inr (Text.rsplitOnce_eq_some.mp parts).2
  · rintro ⟨digits, number, protocol, read, known, written, same⟩
    have nonempty : (Text.trim internal).isEmpty = false := by
      have digitsThere := (Text.parseUnsigned_characters read).1
      rcases written with ⟨plain, _⟩ | whole
      · rw [plain]
        simpa using digitsThere
      · rw [whole]
        simp
    have parts : (Text.rsplitOnce '/' (Text.trim internal)).getD (Text.trim internal, "tcp".toList) =
        (digits, protocol) := by
      rcases written with ⟨plain, tcp⟩ | whole
      · rw [plain, Text.rsplitOnce_eq_none.mpr (slash_not_mem_digits read), tcp]
        rfl
      · rw [whole, Text.rsplitOnce_append (slash_not_mem_protocol known)]
        rfl
    refine bind_eq_ok.mpr ⟨(), refuseIf_eq_ok.mpr nonempty, ?_⟩
    rw [parts]
    refine bind_eq_ok.mpr ⟨number, withContext_eq_ok.mpr (parseU16_eq_ok.mpr read), ?_⟩
    exact bind_eq_ok.mpr ⟨(), refuseIf_eq_ok.mpr (decide_eq_false (not_not.mpr known)), by rw [same]⟩

theorem digits_not_white {limit number : Nat} {digits : Text}
    (read : Text.parseUnsigned limit digits = some number) {character : Char} (member : character ∈ digits) :
    Text.isWhitespace character = false := by
  rcases (Text.parseUnsigned_characters read).2 character member with digit | sign
  · simp only [Char.isDigit, Bool.and_eq_true, decide_eq_true_eq, UInt32.le_iff_toNat_le] at digit
    have bounds : 48 ≤ character.toNat /\ character.toNat ≤ 57 := digit
    simp only [Text.isWhitespace, Bool.or_eq_false_iff, Bool.and_eq_false_iff, decide_eq_false_iff_not,
      beq_eq_false_iff_ne]
    omega
  · rw [sign]
    decide

theorem trim_digits {limit number : Nat} {digits : Text}
    (read : Text.parseUnsigned limit digits = some number) : Text.trim digits = digits := by
  apply Text.trim_of_ends
  · exact fun character first => digits_not_white read (List.mem_of_head? first)
  · exact fun character last => digits_not_white read (List.mem_of_getLast? last)

theorem trim_digits_protocol {limit number : Nat} {digits protocol : Text}
    (read : Text.parseUnsigned limit digits = some number)
    (known : protocol ∈ ["tcp".toList, "udp".toList, "sctp".toList]) :
    Text.trim (digits ++ '/' :: protocol) = digits ++ '/' :: protocol := by
  apply Text.trim_of_ends
  · intro character first
    cases digits with
    | nil => exact absurd rfl (Text.parseUnsigned_characters read).1
    | cons head tail =>
        cases first
        exact digits_not_white read List.mem_cons_self
  · intro character last
    rw [List.getLast?_append] at last
    simp only [List.mem_cons, List.not_mem_nil, or_false] at known
    rcases known with same | same | same <;> subst same <;> cases last <;> decide

theorem lower_protocol {protocol : Text} (known : protocol ∈ ["tcp".toList, "udp".toList, "sctp".toList]) :
    protocol.map Char.toLower = protocol := by
  simp only [List.mem_cons, List.not_mem_nil, or_false] at known
  rcases known with same | same | same <;> subst same <;> decide

theorem written_free {digits protocol : Text} {number : Nat}
    (read : Text.parseUnsigned 65535 digits = some number)
    (known : protocol ∈ ["tcp".toList, "udp".toList, "sctp".toList]) :
    FreePort (digits ++ '/' :: protocol) (Text.decimal number ++ '/' :: protocol) := by
  have lower := lower_protocol known
  refine ⟨digits, number, protocol, read, ?_, Or.inr (trim_digits_protocol read known), ?_⟩
  · rw [lower]
    exact known
  · rw [lower]

/-- A port in the plain form is one in the free form, with the same key. -/
theorem PlainPort.free {internal key : Text} (plain : PlainPort internal key) : FreePort internal key := by
  rcases plain with ⟨digits, number, protocol, read, _, known, written, same⟩
  rw [same]
  rcases written with ⟨whole, tcp⟩ | whole
  · rw [whole, tcp]
    refine ⟨digits, number, "tcp".toList, read, ?_, Or.inl ⟨trim_digits read, rfl⟩, ?_⟩
    · decide
    · rw [lower_protocol (by decide)]
  · rw [whole]
    refine written_free read ?_
    simp only [List.mem_cons, List.not_mem_nil, or_false] at known ⊢
    rcases known with tcp | udp
    · exact Or.inl tcp
    · exact Or.inr (Or.inl udp)

/-! ## Which lists are taken -/

/-- The mappings that an update takes. -/
structure PlainMappings (mappings : List (Text × Int)) : Prop where
  nonempty : Not (mappings = [])
  few : mappings.length ≤ 32
  range : forall mapping, mapping ∈ mappings -> 1 ≤ mapping.2 /\ mapping.2 ≤ 65535
  hostPorts : (mappings.map Prod.snd).Nodup
  containerPorts : Exists fun keys =>
    List.Forall₂ (fun mapping key => PlainPort mapping.1 key) mappings keys /\ keys.Nodup

/-- What a creation takes with all ports free: mappings in the free form, or
without mappings the internal port of the server. -/
inductive CreationTakes (spec : PublicationSpec) (hostPort : Int) : Prop where
  | mapped (nonempty : Not (spec.portMappings = []))
      (free : forall mapping, mapping ∈ spec.portMappings ->
        (Exists fun key => FreePort mapping.1 key) /\ 0 ≤ mapping.2 /\ mapping.2 ≤ 65535)
  | internal {internal : Option Text} (empty : spec.portMappings = [])
      (found : effectiveInternalPort spec.internalPort spec.env = .ok internal)
      (range : internal = none \/ 0 ≤ hostPort /\ hostPort ≤ 65535)

theorem validateMappings_accepts_iff {mappings : List (Text × Int)} :
    forall {ports : ServerPorts} {seen : List Int},
      (Exists fun after => validateMappings ports seen mappings = .ok after) <->
        (forall mapping, mapping ∈ mappings -> 1 ≤ mapping.2 /\ mapping.2 ≤ 65535) /\
        (mappings.map Prod.snd).Nodup /\ (forall port, port ∈ mappings.map Prod.snd -> port ∉ seen) /\
        Exists fun keys => List.Forall₂ (fun mapping key => PlainPort mapping.1 key) mappings keys /\
          keys.Nodup /\ forall key, key ∈ keys -> ports.bindings.lookup key = none := by
  induction mappings with
  | nil =>
      intro ports seen
      refine iff_of_true ⟨ports, rfl⟩ ?_
      exact ⟨by simp, List.nodup_nil, by simp, [], .nil, List.nodup_nil, by simp⟩
  | cons mapping rest induction =>
      intro ports seen
      rcases mapping with ⟨internal, hostPort⟩
      constructor
      · rintro ⟨after, passed⟩
        rcases bind_eq_ok.mp passed with ⟨_, hostChecked, passed⟩
        rcases bind_eq_ok.mp passed with ⟨key, mapped, passed⟩
        rcases bind_eq_ok.mp passed with ⟨_, unique, passed⟩
        have checked := refuseIf_eq_ok.mp hostChecked
        rw [Bool.or_eq_false_iff, Bool.not_eq_false', decide_eq_true_eq] at checked
        have absent : ports.bindings.lookup key = none := by
          have notThere := refuseIf_eq_ok.mp unique
          rwa [Option.isSome_eq_false_iff, Option.isNone_iff_eq_none] at notThere
        rcases induction.mp ⟨after, passed⟩ with ⟨ranges, distinct, fresh, keys, written, keysDistinct, free⟩
        refine ⟨?_, ?_, ?_, key :: keys, .cons (mappedPort_eq_ok.mp mapped) written, ?_, ?_⟩
        · intro other member
          rcases List.mem_cons.mp member with same | inRest
          · subst same
            exact checked.1
          · exact ranges other inRest
        · refine List.nodup_cons.mpr ⟨?_, distinct⟩
          intro again
          exact fresh hostPort again List.mem_cons_self
        · intro port member
          rcases List.mem_cons.mp member with same | inRest
          · subst same
            simpa using checked.2
          · exact fun seenBefore => fresh port inRest (List.mem_cons_of_mem _ seenBefore)
        · refine List.nodup_cons.mpr ⟨?_, keysDistinct⟩
          intro again
          have impossible := free key again
          rw [AList.lookup_insert] at impossible
          cases impossible
        · intro other member
          rcases List.mem_cons.mp member with same | inRest
          · rw [same]
            exact absent
          · have stillFree := free other inRest
            by_cases same : other = key
            · rw [same]
              exact absent
            · rwa [Table.lookup_insert_of_ne _ same] at stillFree
      · rintro ⟨ranges, distinct, fresh, keys, written, keysDistinct, free⟩
        rcases List.forall₂_cons_left_iff.mp written with ⟨key, others, plain, restWritten, same⟩
        subst same
        rcases List.nodup_cons.mp distinct with ⟨notAgain, restDistinct⟩
        rcases List.nodup_cons.mp keysDistinct with ⟨keyNotAgain, othersDistinct⟩
        have later : Exists fun after => validateMappings ⟨ports.exposed ++ [key],
            ports.bindings.insert key (some [bindingTo hostPort.toNat])⟩ (hostPort :: seen) rest = .ok after := by
          refine induction.mpr ⟨?_, restDistinct, ?_, others, restWritten, othersDistinct, ?_⟩
          · intro other member
            exact ranges other (List.mem_cons_of_mem _ member)
          · intro port member seenBefore
            rcases List.mem_cons.mp seenBefore with same | before
            · exact notAgain (same ▸ member)
            · exact fresh port (List.mem_cons_of_mem _ member) before
          · intro other member
            have different : Not (other = key) := fun same => keyNotAgain (same ▸ member)
            rw [Table.lookup_insert_of_ne _ different]
            exact free other (List.mem_cons_of_mem _ member)
        rcases later with ⟨after, passed⟩
        refine ⟨after, bind_eq_ok.mpr ⟨(), refuseIf_eq_ok.mpr ?_, ?_⟩⟩
        · rw [Bool.or_eq_false_iff, Bool.not_eq_false', decide_eq_true_eq]
          exact ⟨ranges _ List.mem_cons_self, by simpa using fresh hostPort List.mem_cons_self⟩
        · refine bind_eq_ok.mpr ⟨key, mappedPort_eq_ok.mpr plain, bind_eq_ok.mpr ⟨(), ?_, passed⟩⟩
          rw [refuseIf_eq_ok, free key List.mem_cons_self]
          rfl

theorem validatedPortBindings_accepts_iff {mappings : List (Text × Int)} :
    (Exists fun ports => validatedPortBindings mappings = .ok ports) <-> PlainMappings mappings := by
  unfold validatedPortBindings
  constructor
  · rintro ⟨ports, accepted⟩
    rcases bind_eq_ok.mp accepted with ⟨_, counted, passed⟩
    have counts := refuseIf_eq_ok.mp counted
    rw [Bool.or_eq_false_iff, decide_eq_false_iff_not, List.isEmpty_eq_false_iff] at counts
    rcases validateMappings_accepts_iff.mp ⟨ports, passed⟩ with ⟨ranges, distinct, _, keys, written, unique, _⟩
    exact ⟨counts.1, Nat.le_of_not_lt counts.2, ranges, distinct, keys, written, unique⟩
  · rintro ⟨nonempty, few, ranges, distinct, keys, written, unique⟩
    have passes := (@validateMappings_accepts_iff mappings noPorts []).mpr
      ⟨ranges, distinct, by simp, keys, written, unique, fun key _ => rfl⟩
    rcases passes with ⟨ports, passed⟩
    refine ⟨ports, bind_eq_ok.mpr ⟨(), refuseIf_eq_ok.mpr ?_, passed⟩⟩
    rw [Bool.or_eq_false_iff, decide_eq_false_iff_not, List.isEmpty_eq_false_iff]
    exact ⟨nonempty, Nat.not_lt.mpr few⟩

/-! ## What a creation makes of them -/

/-- A mapping of a free host port adds its binding to those of its container port. -/
theorem addPortMapping_free {ports : ServerPorts} {internal key : Text} {hostPort : Int}
    (free : FreePort internal key) (range : 0 ≤ hostPort /\ hostPort ≤ 65535) :
    addPortMapping true ports internal (some hostPort) =
      .ok ⟨if key ∈ ports.exposed then ports.exposed else ports.exposed ++ [key],
        ports.bindings.insert key
          (some (((ports.bindings.lookup key).getD none).getD [] ++ [bindingTo hostPort.toNat]))⟩ := by
  unfold addPortMapping
  refine bind_eq_ok.mpr ⟨key, normalizeContainerPort_eq_ok.mpr free, ?_⟩
  dsimp only
  exact bind_eq_ok.mpr ⟨hostPort.toNat, withContext_eq_ok.mpr (if_pos range), bind_eq_ok.mpr ⟨(), rfl, rfl⟩⟩

theorem addPortMapping_accepts_iff {ports : ServerPorts} {internal : Text} {hostPort : Int} :
    (Exists fun after => addPortMapping true ports internal (some hostPort) = .ok after) <->
      (Exists fun key => FreePort internal key) /\ 0 ≤ hostPort /\ hostPort ≤ 65535 := by
  constructor
  · rintro ⟨after, added⟩
    unfold addPortMapping at added
    rcases bind_eq_ok.mp added with ⟨key, normalized, added⟩
    rcases bind_eq_ok.mp added with ⟨port, converted, _⟩
    have converts := withContext_eq_ok.mp converted
    unfold u16TryFrom at converts
    split at converts
    · next range => exact ⟨⟨key, normalizeContainerPort_eq_ok.mp normalized⟩, range⟩
    · cases converts
  · rintro ⟨⟨key, free⟩, range⟩
    exact ⟨_, addPortMapping_free free range⟩

theorem addPortMappings_accepts_iff {mappings : List (Text × Int)} :
    forall {index : Nat} {ports : ServerPorts},
      (Exists fun after => addPortMappings (fun _ => true) index ports mappings = .ok after) <->
        forall mapping, mapping ∈ mappings ->
          (Exists fun key => FreePort mapping.1 key) /\ 0 ≤ mapping.2 /\ mapping.2 ≤ 65535 := by
  induction mappings with
  | nil =>
      intro index ports
      exact iff_of_true ⟨ports, rfl⟩ (by simp)
  | cons mapping rest induction =>
      intro index ports
      constructor
      · rintro ⟨after, added⟩ other member
        rcases bind_eq_ok.mp added with ⟨middle, first, later⟩
        rcases List.mem_cons.mp member with same | inRest
        · rw [same]
          exact addPortMapping_accepts_iff.mp ⟨middle, first⟩
        · exact induction.mp ⟨after, later⟩ other inRest
      · intro free
        rcases (@addPortMapping_accepts_iff ports mapping.1 mapping.2).mpr
          (free mapping List.mem_cons_self) with ⟨middle, first⟩
        have others := fun other member => free other (List.mem_cons_of_mem _ member)
        rcases (@induction (index + 1) middle).mpr others with ⟨after, later⟩
        exact ⟨after, bind_eq_ok.mpr ⟨middle, first, later⟩⟩

theorem effectiveInternalPort_free {internalPort port : Text} {env : List Text}
    (found : effectiveInternalPort internalPort env = .ok (some port)) :
    Exists fun key => FreePort port key := by
  have ofDecimal {number : Nat} {digits protocol : Text} (read : Text.parseUnsigned 65535 digits = some number)
      (known : protocol ∈ ["tcp".toList, "udp".toList, "sctp".toList]) :
      Exists fun key => FreePort (Text.decimal number ++ '/' :: protocol) key :=
    ⟨_, written_free (Text.parseUnsigned_decimal (Text.parseUnsigned_le read)) known⟩
  unfold effectiveInternalPort at found
  split at found
  · next number fromEnv =>
      cases found
      rcases List.exists_of_findSome?_eq_some fromEnv with ⟨entry, _, named⟩
      rcases Option.bind_eq_some_iff.mp named with ⟨digits, _, read⟩
      exact ofDecimal read (by decide)
  · dsimp only at found
    split at found
    · cases found
    · rcases bind_eq_ok.mp found with ⟨number, read, found⟩
      rcases bind_eq_ok.mp found with ⟨_, known, same⟩
      cases same
      have protocolKnown := not_not.mp (of_decide_eq_false (refuseIf_eq_ok.mp known))
      exact ofDecimal (parseU16_eq_ok.mp (withContext_eq_ok.mp read)) protocolKnown

theorem serverPorts_accepts_iff {spec : PublicationSpec} {hostPort : Int}
    (exposed : spec.exposePublicPort = true) :
    (Exists fun ports => serverPorts (fun _ => true) spec hostPort = .ok ports) <->
      CreationTakes spec hostPort := by
  unfold serverPorts
  rw [exposed, Bool.true_and]
  by_cases empty : spec.portMappings = []
  · rw [empty, if_neg (by decide)]
    constructor
    · rintro ⟨ports, accepted⟩
      rcases bind_eq_ok.mp accepted with ⟨internal, found, added⟩
      refine .internal empty found ?_
      cases internal with
      | none => exact Or.inl rfl
      | some internal => exact Or.inr (addPortMapping_accepts_iff.mp ⟨ports, added⟩).2
    · intro takes
      cases takes with
      | mapped nonempty _ => exact absurd empty nonempty
      | @internal internal _ found range =>
          cases internal with
          | none => exact ⟨noPorts, bind_eq_ok.mpr ⟨none, found, rfl⟩⟩
          | some internal =>
              have inRange := range.resolve_left (by simp)
              rcases effectiveInternalPort_free found with ⟨key, free⟩
              exact ⟨_, bind_eq_ok.mpr ⟨some internal, found, addPortMapping_free free inRange⟩⟩
  · have filled : (!spec.portMappings.isEmpty) = true := by
      simpa using empty
    rw [if_pos filled, addPortMappings_accepts_iff]
    constructor
    · exact fun free => .mapped empty free
    · intro takes
      cases takes with
      | mapped _ free => exact free
      | internal nothing _ _ => exact absurd nothing empty

/-! ## The same mappings -/

/-- Every container port is bound to one host port. -/
def SinglePorts (bindings : PortBindings) : Prop :=
  forall key row, bindings.lookup key = some row -> Exists fun port => row = some [bindingTo port]

/-- A creation makes of mappings that pass what an update makes of them. -/
theorem validateMappings_created {mappings : List (Text × Int)} :
    forall {index : Nat} {ports after : ServerPorts} {seen : List Int},
      (forall key, key ∈ ports.exposed -> (ports.bindings.lookup key).isSome = true) ->
      SinglePorts ports.bindings -> validateMappings ports seen mappings = .ok after ->
        addPortMappings (fun _ => true) index ports mappings = .ok after /\ SinglePorts after.bindings := by
  induction mappings with
  | nil =>
      intro index ports after seen _ single passed
      cases passed
      exact ⟨rfl, single⟩
  | cons mapping rest induction =>
      intro index ports after seen bound single passed
      rcases bind_eq_ok.mp passed with ⟨_, hostChecked, passed⟩
      rcases bind_eq_ok.mp passed with ⟨key, mapped, passed⟩
      rcases bind_eq_ok.mp passed with ⟨_, unique, passed⟩
      have range := refuseIf_eq_ok.mp hostChecked
      rw [Bool.or_eq_false_iff, Bool.not_eq_false', decide_eq_true_eq] at range
      have absent : ports.bindings.lookup key = none := by
        have notThere := refuseIf_eq_ok.mp unique
        rwa [Option.isSome_eq_false_iff, Option.isNone_iff_eq_none] at notThere
      have notExposed : key ∉ ports.exposed := by
        intro member
        have present := bound key member
        rw [absent] at present
        cases present
      have added := @addPortMapping_free ports mapping.1 key mapping.2 (mappedPort_eq_ok.mp mapped).free
        ⟨by omega, range.1.2⟩
      rw [if_neg notExposed, absent] at added
      have later := @induction (index + 1) _ after (mapping.2 :: seen) ?_ ?_ passed
      · exact ⟨bind_eq_ok.mpr ⟨_, added, later.1⟩, later.2⟩
      · intro other member
        rcases List.mem_append.mp member with earlier | new
        · by_cases same : other = key
          · rw [same, AList.lookup_insert]
            rfl
          · rw [Table.lookup_insert_of_ne _ same]
            exact bound other earlier
        · rw [List.mem_singleton.mp new, AList.lookup_insert]
          rfl
      · intro other row found
        by_cases same : other = key
        · rw [same, AList.lookup_insert] at found
          cases found
          exact ⟨_, rfl⟩
        · rw [Table.lookup_insert_of_ne _ same] at found
          exact single other row found

/-- What an update takes, a creation takes too and makes the same of it. -/
theorem validatedPortBindings_created {spec : PublicationSpec} {hostPort : Int} {ports : ServerPorts}
    (exposed : spec.exposePublicPort = true) (valid : validatedPortBindings spec.portMappings = .ok ports) :
    serverPorts (fun _ => true) spec hostPort = .ok ports /\ SinglePorts ports.bindings := by
  have filled := (validatedPortBindings_accepts_iff.mp ⟨ports, valid⟩).nonempty
  have mapped : (spec.exposePublicPort && !spec.portMappings.isEmpty) = true := by
    rw [exposed, Bool.true_and]
    simpa using filled
  unfold validatedPortBindings at valid
  rcases bind_eq_ok.mp valid with ⟨_, _, passed⟩
  unfold serverPorts
  rw [if_pos mapped]
  apply validateMappings_created _ _ passed
  · intro key impossible
    cases impossible
  · intro key row impossible
    cases impossible

/-- Creation and update accept the list alike, and give the same exposed ports
and bindings, one host port for each container port. -/
structure SameVerdict (spec : PublicationSpec) (hostPort : Int) : Prop where
  accepted : (Exists fun ports => serverPorts (fun _ => true) spec hostPort = .ok ports) <->
    Exists fun ports => validatedPortBindings spec.portMappings = .ok ports
  ports : forall created updated, serverPorts (fun _ => true) spec hostPort = .ok created ->
    validatedPortBindings spec.portMappings = .ok updated ->
      created.exposed = updated.exposed /\ created.bindings = updated.bindings /\
        SinglePorts created.bindings

/-- With all host ports free, the verdicts are the same exactly on lists that a
creation refuses, and on lists of mappings in the plain form. -/
theorem sameVerdict_iff {spec : PublicationSpec} (exposed : spec.exposePublicPort = true) (hostPort : Int) :
    SameVerdict spec hostPort <->
      Not (CreationTakes spec hostPort) \/ PlainMappings spec.portMappings := by
  constructor
  · intro same
    by_cases takes : CreationTakes spec hostPort
    · exact Or.inr (validatedPortBindings_accepts_iff.mp
        (same.accepted.mp ((serverPorts_accepts_iff exposed).mpr takes)))
    · exact Or.inl takes
  · intro agree
    constructor
    · constructor
      · intro created
        have takes := (serverPorts_accepts_iff exposed).mp created
        exact validatedPortBindings_accepts_iff.mpr (agree.resolve_left (not_not.mpr takes))
      · rintro ⟨ports, valid⟩
        exact ⟨ports, (validatedPortBindings_created exposed valid).1⟩
    · intro created updated built valid
      rcases @validatedPortBindings_created spec hostPort updated exposed valid with ⟨alsoBuilt, single⟩
      cases built.symm.trans alsoBuilt
      exact ⟨rfl, rfl, single⟩

/-- A server whose public port is exposed, with the given mappings. -/
def mappedServer (mappings : List (Text × Int)) : PublicationSpec :=
  ⟨true, 0, [], [], mappings⟩

theorem sameVerdict_iff_sample :
    SameVerdict (mappedServer [("25565".toList, 25565)]) 0 <->
      Not (CreationTakes (mappedServer [("25565".toList, 25565)]) 0) \/
        PlainMappings (mappedServer [("25565".toList, 25565)]).portMappings :=
  sameVerdict_iff rfl 0

/-- A creation binds one container port to two host ports, and an update refuses to. -/
theorem container_port_taken_twice :
    Not (SameVerdict (mappedServer [("80/tcp".toList, 8080), ("80/tcp".toList, 8081)]) 0) := by
  intro same
  rcases same.accepted.mp ⟨_, rfl⟩ with ⟨ports, impossible⟩
  cases impossible

end Runtime
end Agapornis
