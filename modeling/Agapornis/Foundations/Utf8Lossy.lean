import Agapornis.Foundations.Utf8

namespace Agapornis
namespace Foundations

/-!
# What the lossy reading of UTF-8 shows

The lossy reading finds the characters of a text wherever its bytes stand, even
after the beginning of another character.  Conversely what it shows between
replacement characters is there: every character that it shows other than a
replacement character stands for its own bytes.
-/

/-- The value of a character with some more bytes read. -/
def completed (value : Nat) (tail : Bytes) : Nat :=
  tail.foldl (fun value byte => value * 64 + (byte.toNat - 0x80)) value

theorem completed_cons (value : Nat) (byte : UInt8) (tail : Bytes) :
    completed value (byte :: tail) = completed (value * 64 + (byte.toNat - 0x80)) tail := by
  rw [completed, completed, List.foldl_cons]

theorem completed_nil (value : Nat) : completed value [] = value := by
  rw [completed, List.foldl_nil]

/-- The bytes that a character lacks. -/
def Lacks : Nat -> Nat -> Nat -> Bytes -> Prop
  | _, _, _, [] => False
  | missing, lower, upper, [byte] => missing = 1 /\ lower <= byte.toNat /\ byte.toNat <= upper
  | missing, lower, upper, byte :: next :: rest =>
      1 < missing /\ (lower <= byte.toNat /\ byte.toNat <= upper) /\ Lacks (missing - 1) 0x80 0xBF (next :: rest)

/-- A character that lacks some bytes is read when they come. -/
theorem lossyFrom_lacks (tail rest : Bytes) : forall begun : PartialChar,
    Lacks begun.missing begun.lower begun.upper tail ->
      lossyFrom (some begun) (tail ++ rest) = Char.ofNat (completed begun.value tail) :: lossyFrom none rest := by
  induction tail with
  | nil => exact fun begun lacks => lacks.elim
  | cons byte tail induction =>
      intro begun lacks
      cases tail with
      | nil =>
          rcases lacks with ⟨last, lower, upper⟩
          rw [List.cons_append, List.nil_append, lossyFrom, if_pos (by simp [lower, upper])]
          dsimp only
          rw [if_pos (Nat.le_of_eq last), completed_cons, completed_nil]
      | cons next tail =>
          rcases lacks with ⟨more, ⟨lower, upper⟩, later⟩
          rw [List.cons_append, lossyFrom, if_pos (by simp [lower, upper])]
          dsimp only
          rw [if_neg (Nat.not_le_of_lt more), induction _ later, completed_cons begun.value]

/-- The first bytes of characters of two bytes and more, with what they leave. -/
inductive Leads : Nat -> PartialChar -> Prop where
  | two {byte : Nat} : 0xC2 <= byte -> byte <= 0xDF -> Leads byte ⟨1, 0x80, 0xBF, byte - 0xC0⟩
  | threeLow : Leads 0xE0 ⟨2, 0xA0, 0xBF, 0⟩
  | threeHigh : Leads 0xED ⟨2, 0x80, 0x9F, 0xD⟩
  | three {byte : Nat} : 0xE1 <= byte -> byte <= 0xEF -> Not (byte = 0xED) ->
      Leads byte ⟨2, 0x80, 0xBF, byte - 0xE0⟩
  | fourLow : Leads 0xF0 ⟨3, 0x90, 0xBF, 0⟩
  | fourHigh : Leads 0xF4 ⟨3, 0x80, 0x8F, 4⟩
  | four {byte : Nat} : 0xF1 <= byte -> byte <= 0xF3 -> Leads byte ⟨3, 0x80, 0xBF, byte - 0xF0⟩

theorem Leads.firstByte {byte : Nat} {begun : PartialChar} (leads : Leads byte begun) :
    firstByte byte = (none, some begun) := by
  unfold Foundations.firstByte
  cases leads with
  | two low high => rw [if_neg (by omega), if_pos (by simp [low, high])]
  | threeLow => rfl
  | threeHigh => rfl
  | three low high apart =>
      rw [if_neg (by omega), if_neg (by simp; omega), if_neg (by omega), if_neg apart, if_pos (by simp [low, high])]
  | fourLow => rfl
  | fourHigh => rfl
  | four low high =>
      rw [if_neg (by omega), if_neg (by simp; omega), if_neg (by omega), if_neg (by omega), if_neg (by simp; omega),
        if_neg (by omega), if_neg (by omega), if_pos (by simp [low, high])]

/-- What the first byte of a character says. -/
theorem firstByte_cases (byte : Nat) :
    (byte < 0x80 /\ firstByte byte = (some (Char.ofNat byte), none)) \/
      (Exists fun begun => Leads byte begun) \/ firstByte byte = (some replacementCharacter, none) := by
  by_cases one : byte < 0x80
  · refine Or.inl ⟨one, ?_⟩
    rw [firstByte, if_pos one]
  · right
    unfold firstByte
    rw [if_neg one]
    split
    · next two =>
        simp only [Bool.and_eq_true, decide_eq_true_eq] at two
        exact Or.inl ⟨_, .two two.1 two.2⟩
    · split
      · next low => exact Or.inl ⟨_, by rw [low]; exact .threeLow⟩
      · split
        · next high => exact Or.inl ⟨_, by rw [high]; exact .threeHigh⟩
        · next apart =>
            split
            · next three =>
                simp only [Bool.and_eq_true, decide_eq_true_eq] at three
                exact Or.inl ⟨_, .three three.1 three.2 apart⟩
            · split
              · next low => exact Or.inl ⟨_, by rw [low]; exact .fourLow⟩
              · split
                · next high => exact Or.inl ⟨_, by rw [high]; exact .fourHigh⟩
                · split
                  · next four =>
                      simp only [Bool.and_eq_true, decide_eq_true_eq] at four
                      exact Or.inl ⟨_, .four four.1 four.2⟩
                  · exact Or.inr rfl

/-! ## The bytes of one character -/

section Bytes

variable {lower upper : Nat} {tail : Bytes}

theorem lacks_one : Lacks 1 lower upper tail <->
    Exists fun byte => tail = [byte] /\ lower <= byte.toNat /\ byte.toNat <= upper := by
  constructor
  · intro lacks
    match tail, lacks with
    | [byte], lacks => exact ⟨byte, rfl, lacks.2⟩
    | byte :: next :: rest, lacks => exact absurd lacks.1 (Nat.lt_irrefl 1)
  · rintro ⟨byte, rfl, within⟩
    exact ⟨rfl, within⟩

theorem lacks_more {missing : Nat} : Lacks (missing + 2) lower upper tail <->
    Exists fun byte => Exists fun rest => tail = byte :: rest /\ (lower <= byte.toNat /\ byte.toNat <= upper) /\
      Lacks (missing + 1) 0x80 0xBF rest := by
  constructor
  · intro lacks
    match tail, lacks with
    | [byte], lacks => exact absurd lacks.1 (by omega)
    | byte :: next :: rest, lacks => exact ⟨byte, next :: rest, rfl, lacks.2.1, lacks.2.2⟩
  · rintro ⟨byte, rest, rfl, within, later⟩
    cases rest with
    | nil => exact later.elim
    | cons next rest => exact ⟨by omega, within, later⟩

end Bytes

theorem byte_eq (byte : UInt8) {value : Nat} (same : value = byte.toNat) : UInt8.ofNat value = byte := by
  rw [same, UInt8.ofNat_toNat]

theorem toNat_ofNat_byte {value : Nat} (small : value < 256) : (UInt8.ofNat value).toNat = value := by
  rw [UInt8.toNat_ofNat', Nat.mod_eq_of_lt small]

section Encoding

variable {value : Nat}

theorem val_ofNat (valid : value.isValidChar) : (Char.ofNat value).val.toNat = value := by
  rw [Char.ofNat, dif_pos valid]
  rfl

theorem utf8EncodeChar_two (low : 0x80 <= value) (high : value <= 0x7ff) :
    String.utf8EncodeChar (Char.ofNat value) = [UInt8.ofNat (value / 64 + 0xC0), UInt8.ofNat (value % 64 + 0x80)] := by
  rw [String.utf8EncodeChar, val_ofNat (Or.inl (by omega)), if_neg (by omega), if_pos high,
    Nat.mod_eq_of_lt (by omega : value / 64 < 0x20)]

theorem utf8EncodeChar_three (low : 0x800 <= value) (high : value <= 0xffff)
    (valid : value < 0xd800 \/ 0xdfff < value) : String.utf8EncodeChar (Char.ofNat value) =
      [UInt8.ofNat (value / 4096 + 0xE0), UInt8.ofNat (value / 64 % 64 + 0x80), UInt8.ofNat (value % 64 + 0x80)] := by
  have isValid : value.isValidChar := valid.imp_right fun above => ⟨above, by omega⟩
  rw [String.utf8EncodeChar, val_ofNat isValid, if_neg (by omega), if_neg (by omega), if_pos high,
    Nat.mod_eq_of_lt (by omega : value / 4096 < 0x10)]

theorem utf8EncodeChar_four (low : 0x10000 <= value) (high : value <= 0x10ffff) :
    String.utf8EncodeChar (Char.ofNat value) =
      [UInt8.ofNat (value / 262144 + 0xF0), UInt8.ofNat (value / 4096 % 64 + 0x80),
        UInt8.ofNat (value / 64 % 64 + 0x80), UInt8.ofNat (value % 64 + 0x80)] := by
  have isValid : value.isValidChar := Or.inr ⟨by omega, by omega⟩
  rw [String.utf8EncodeChar, val_ofNat isValid, if_neg (by omega), if_neg (by omega), if_neg (by omega),
    Nat.mod_eq_of_lt (by omega : value / 262144 < 8)]

end Encoding

/-- What a first byte and the bytes it lacks are read as has these bytes. -/
theorem Leads.encodes {first : UInt8} {begun : PartialChar} (leads : Leads first.toNat begun) {tail : Bytes}
    (lacks : Lacks begun.missing begun.lower begun.upper tail) :
    String.utf8EncodeChar (Char.ofNat (completed begun.value tail)) = first :: tail := by
  generalize byteValue : first.toNat = byte at leads
  have three {lower upper value : Nat} (lacks : Lacks 2 lower upper tail) (low : 0x80 <= lower) (high : upper <= 0xBF)
      (first_eq : byte = value + 0xE0) (small : value < 0x10) (least : value = 0 -> 0xA0 <= lower)
      (most : value = 0xD -> upper <= 0x9F) :
      String.utf8EncodeChar (Char.ofNat (completed value tail)) = first :: tail := by
    rcases lacks_more.mp lacks with ⟨second, rest, rfl, within, later⟩
    rcases lacks_one.mp later with ⟨third, rfl, thirdWithin⟩
    rw [completed_cons, completed_cons, completed_nil, utf8EncodeChar_three (by omega) (by omega) (by omega),
      byte_eq first (by omega), byte_eq second (by omega), byte_eq third (by omega)]
  have four {lower upper value : Nat} (lacks : Lacks 3 lower upper tail) (low : 0x80 <= lower) (high : upper <= 0xBF)
      (first_eq : byte = value + 0xF0) (small : value < 5) (least : value = 0 -> 0x90 <= lower)
      (most : value = 4 -> upper <= 0x8F) :
      String.utf8EncodeChar (Char.ofNat (completed value tail)) = first :: tail := by
    rcases lacks_more.mp lacks with ⟨second, rest, rfl, within, later⟩
    rcases lacks_more.mp later with ⟨third, more, rfl, thirdWithin, last⟩
    rcases lacks_one.mp last with ⟨fourth, rfl, fourthWithin⟩
    rw [completed_cons, completed_cons, completed_cons, completed_nil, utf8EncodeChar_four (by omega) (by omega),
      byte_eq first (by omega), byte_eq second (by omega), byte_eq third (by omega),
      byte_eq fourth (by omega)]
  cases leads <;> dsimp only at lacks ⊢
  case two low high =>
    rcases lacks_one.mp lacks with ⟨second, rfl, within⟩
    rw [completed_cons, completed_nil, utf8EncodeChar_two (by omega) (by omega), byte_eq first (by omega),
      byte_eq second (by omega)]
  case threeLow => exact three lacks (by omega) (by omega) rfl (by omega) (fun _ => Nat.le_refl _) nofun
  case threeHigh => exact three lacks (by omega) (by omega) rfl (by omega) nofun (fun _ => Nat.le_refl _)
  case three low high apart =>
    exact three lacks (by omega) (by omega) (by omega) (by omega) (fun zero => by omega) (fun same => by omega)
  case fourLow => exact four lacks (by omega) (by omega) rfl (by omega) (fun _ => Nat.le_refl _) nofun
  case fourHigh => exact four lacks (by omega) (by omega) rfl (by omega) nofun (fun _ => Nat.le_refl _)
  case four low high =>
    exact four lacks (by omega) (by omega) (by omega) (by omega) (fun zero => by omega) (fun same => by omega)

theorem leads_three {top : Nat} (second : Nat) (small : top < 0x10) (least : top = 0 -> 0xA0 <= second)
    (most : top = 0xD -> second <= 0x9F) (low : 0x80 <= second) (high : second <= 0xBF) :
    Exists fun lower => Exists fun upper =>
      Leads (top + 0xE0) ⟨2, lower, upper, top⟩ /\ lower <= second /\ second <= upper := by
  by_cases zero : top = 0
  · subst zero
    exact ⟨_, _, .threeLow, least rfl, high⟩
  · by_cases last : top = 0xD
    · subst last
      exact ⟨_, _, .threeHigh, low, most rfl⟩
    · have leads := Leads.three (by omega : 0xE1 <= top + 0xE0) (by omega) (by omega)
      rw [Nat.add_sub_cancel] at leads
      exact ⟨_, _, leads, low, high⟩

theorem leads_four {top : Nat} (second : Nat) (small : top < 5) (least : top = 0 -> 0x90 <= second)
    (most : top = 4 -> second <= 0x8F) (low : 0x80 <= second) (high : second <= 0xBF) :
    Exists fun lower => Exists fun upper =>
      Leads (top + 0xF0) ⟨3, lower, upper, top⟩ /\ lower <= second /\ second <= upper := by
  by_cases zero : top = 0
  · subst zero
    exact ⟨_, _, .fourLow, least rfl, high⟩
  · by_cases last : top = 4
    · subst last
      exact ⟨_, _, .fourHigh, low, most rfl⟩
    · have leads := Leads.four (by omega : 0xF1 <= top + 0xF0) (by omega)
      rw [Nat.add_sub_cancel] at leads
      exact ⟨_, _, leads, low, high⟩

/-- A byte that continues a character. -/
theorem toNat_continuation (value : Nat) : (UInt8.ofNat (value % 64 + 0x80)).toNat = value % 64 + 0x80 :=
  toNat_ofNat_byte (by omega)

/-- A character beyond the first 128 is its first byte and the bytes it lacks. -/
theorem utf8EncodeChar_leads {character : Char} (large : 0x7f < character.toNat) :
    Exists fun first => Exists fun begun => Exists fun tail =>
      String.utf8EncodeChar character = first :: tail /\ Leads first.toNat begun /\
        Lacks begun.missing begun.lower begun.upper tail /\ completed begun.value tail = character.toNat := by
  have valid : character.toNat.isValidChar := character.valid
  have same : String.utf8EncodeChar character = String.utf8EncodeChar (Char.ofNat character.toNat) := by
    rw [Char.ofNat_toNat]
  rw [same]
  generalize character.toNat = value at *
  have scalar : value < 0xd800 \/ 0xdfff < value := valid.imp_right And.left
  have below : value <= 0x10ffff := by
    rcases valid with low | high
    · omega
    · omega
  by_cases two : value <= 0x7ff
  · have leads := Leads.two (by omega : 0xC2 <= value / 64 + 0xC0) (by omega)
    rw [Nat.add_sub_cancel] at leads
    refine ⟨_, ⟨1, 0x80, 0xBF, value / 64⟩, _, utf8EncodeChar_two (by omega) two, ?_, ?_, ?_⟩
    · rw [toNat_ofNat_byte (by omega)]
      exact leads
    · refine lacks_one.mpr ⟨_, rfl, ?_⟩
      rw [toNat_continuation]
      dsimp only
      omega
    · rw [completed_cons, completed_nil, toNat_continuation]
      dsimp only
      omega
  · by_cases three : value <= 0xffff
    · rcases leads_three (value / 64 % 64 + 0x80) (by omega : value / 4096 < 0x10) (by omega) (by omega)
        (by omega) (by omega) with ⟨lower, upper, leads, low, high⟩
      refine ⟨_, ⟨2, lower, upper, value / 4096⟩, _, utf8EncodeChar_three (by omega) three scalar, ?_, ?_, ?_⟩
      · rw [toNat_ofNat_byte (by omega)]
        exact leads
      · refine lacks_more.mpr ⟨_, _, rfl, ?_, lacks_one.mpr ⟨_, rfl, ?_⟩⟩
        · rw [toNat_continuation]
          exact ⟨low, high⟩
        · rw [toNat_continuation]
          omega
      · rw [completed_cons, completed_cons, completed_nil, toNat_continuation, toNat_continuation]
        dsimp only
        omega
    · rcases leads_four (value / 4096 % 64 + 0x80) (by omega : value / 262144 < 5) (by omega) (by omega)
        (by omega) (by omega) with ⟨lower, upper, leads, low, high⟩
      refine ⟨_, ⟨3, lower, upper, value / 262144⟩, _, utf8EncodeChar_four (by omega) below, ?_, ?_, ?_⟩
      · rw [toNat_ofNat_byte (by omega)]
        exact leads
      · refine lacks_more.mpr ⟨_, _, rfl, ?_, lacks_more.mpr ⟨_, _, rfl, ?_, lacks_one.mpr ⟨_, rfl, ?_⟩⟩⟩
        · rw [toNat_continuation]
          exact ⟨low, high⟩
        · rw [toNat_continuation]
          omega
        · rw [toNat_continuation]
          omega
      · rw [completed_cons, completed_cons, completed_cons, completed_nil, toNat_continuation, toNat_continuation,
          toNat_continuation]
        dsimp only
        omega

/-! ## Reading a text -/

/-- Only bytes that continue a character are taken for one that has begun. -/
def Continues : Option PartialChar -> Prop
  | none => True
  | some begun => 0x80 <= begun.lower /\ begun.upper <= 0xBF

theorem Leads.continues {byte : Nat} {begun : PartialChar} (leads : Leads byte begun) : Continues (some begun) := by
  cases leads <;> exact ⟨by dsimp only; omega, by dsimp only; omega⟩

theorem Leads.missing {byte : Nat} {begun : PartialChar} (leads : Leads byte begun) : 1 <= begun.missing := by
  cases leads <;> exact Nat.succ_le_succ (Nat.zero_le _)

theorem Leads.high {byte : Nat} {begun : PartialChar} (leads : Leads byte begun) : 0xBF < byte := by
  cases leads <;> omega

/-- A byte that does not continue what has begun is read anew. -/
theorem lossyFrom_anew {begun : PartialChar} {byte : UInt8} (rest : Bytes)
    (outside : Not (begun.lower <= byte.toNat /\ byte.toNat <= begun.upper)) :
    lossyFrom (some begun) (byte :: rest) = replacementCharacter :: lossyFrom none (byte :: rest) := by
  conv_lhs => rw [lossyFrom]
  rw [if_neg (by simpa using outside)]
  rfl

theorem lossyFrom_leads {byte : UInt8} {begun : PartialChar} (leads : Leads byte.toNat begun) (rest : Bytes) :
    lossyFrom none (byte :: rest) = lossyFrom (some begun) rest := by
  rw [lossyFrom, leads.firstByte]
  rfl

theorem lossyFrom_char (character : Char) (rest : Bytes) :
    lossyFrom none (String.utf8EncodeChar character ++ rest) = character :: lossyFrom none rest := by
  by_cases small : character.toNat <= 0x7f
  · have value : (UInt8.ofNat character.toNat).toNat = character.toNat := toNat_ofNat_byte (by omega)
    rw [utf8EncodeChar_low small, List.singleton_append, lossyFrom, value, firstByte, if_pos (by omega)]
    dsimp only
    rw [Char.ofNat_toNat]
    rfl
  · rcases utf8EncodeChar_leads (Nat.lt_of_not_le small) with ⟨first, begun, tail, shape, leads, lacks, value⟩
    rw [shape, List.cons_append, lossyFrom_leads leads, lossyFrom_lacks tail rest begun lacks, value, Char.ofNat_toNat]

theorem lossyFrom_text (text : Text) (rest : Bytes) :
    lossyFrom none (encodeUtf8 text ++ rest) = text ++ lossyFrom none rest := by
  induction text with
  | nil => rfl
  | cons character text induction =>
      have shape : encodeUtf8 (character :: text) = String.utf8EncodeChar character ++ encodeUtf8 text :=
        List.flatMap_cons
      rw [shape, List.append_assoc, lossyFrom_char, induction, List.cons_append]

theorem firstByte_outside {character : Char} {begun : PartialChar} (continues : Continues (some begun)) {first : UInt8}
    {tail : Bytes} (shape : String.utf8EncodeChar character = first :: tail) :
    Not (begun.lower <= first.toNat /\ first.toNat <= begun.upper) := by
  rcases continues with ⟨lower, upper⟩
  by_cases small : character.toNat <= 0x7f
  · rw [utf8EncodeChar_low small] at shape
    rw [← (List.cons.inj shape).1, toNat_ofNat_byte (by omega)]
    omega
  · rcases utf8EncodeChar_leads (Nat.lt_of_not_le small) with ⟨other, begun, rest, otherShape, leads, _, _⟩
    rw [otherShape] at shape
    rw [← (List.cons.inj shape).1]
    have high := leads.high
    omega

/-- A text is found in the reading wherever its bytes begin. -/
theorem lossyFrom_finds (text : Text) (back : Bytes) (front : Bytes) : forall state, Continues state ->
    text <:+: lossyFrom state (front ++ (encodeUtf8 text ++ back)) := by
  induction front with
  | nil =>
      intro state continues
      rw [List.nil_append]
      cases state with
      | none =>
          rw [lossyFrom_text]
          exact ⟨[], _, rfl⟩
      | some begun =>
          cases text with
          | nil => exact List.nil_infix
          | cons character text =>
              have shape : encodeUtf8 (character :: text) = String.utf8EncodeChar character ++ encodeUtf8 text :=
                List.flatMap_cons
              cases bytes : String.utf8EncodeChar character with
              | nil => exact absurd bytes String.utf8EncodeChar_ne_nil
              | cons first tail =>
                  have whole := lossyFrom_text (character :: text) back
                  rw [shape, bytes, List.cons_append, List.cons_append] at whole ⊢
                  rw [lossyFrom_anew _ (firstByte_outside continues bytes), whole]
                  exact ⟨[replacementCharacter], _, rfl⟩
  | cons byte front induction =>
      intro state continues
      have fresh : text <:+: lossyFrom none (byte :: (front ++ (encodeUtf8 text ++ back))) := by
        rcases firstByte_cases byte.toNat with ⟨_, one⟩ | ⟨begun, leads⟩ | replaced
        · rw [lossyFrom, one]
          exact (induction none trivial).trans (List.suffix_append _ _).isInfix
        · rw [lossyFrom_leads leads]
          exact induction _ leads.continues
        · rw [lossyFrom, replaced]
          exact (induction none trivial).trans (List.suffix_append _ _).isInfix
      rw [List.cons_append]
      cases state with
      | none => exact fresh
      | some begun =>
          by_cases within : begun.lower <= byte.toNat /\ byte.toNat <= begun.upper
          · rw [lossyFrom, if_pos (by simpa using within)]
            dsimp only
            split
            · exact (induction none trivial).trans (List.suffix_cons _ _).isInfix
            · exact induction _ ⟨Nat.le_refl _, Nat.le_refl _⟩
          · rw [lossyFrom_anew _ within]
            exact fresh.trans (List.suffix_cons _ _).isInfix

theorem shown_of_bytes {text : Text} {bytes : Bytes} (inside : encodeUtf8 text <:+: bytes) :
    text <:+: fromUtf8Lossy bytes := by
  rcases inside with ⟨front, back, rfl⟩
  rw [List.append_assoc]
  exact lossyFrom_finds text back front none trivial

/-! ## Nothing else is shown -/

/-- The bytes that were read of a character before the state is reached. -/
def Pending : Option PartialChar -> Bytes -> Prop
  | none, front => front = []
  | some begun, front => 1 <= begun.missing /\ forall tail, Lacks begun.missing begun.lower begun.upper tail ->
      String.utf8EncodeChar (Char.ofNat (completed begun.value tail)) = front ++ tail

/-- The bytes of what is read, character by character. -/
structure ReadAs (shown : Text) (bytes : Bytes) (chunks : List (Char × Bytes)) : Prop where
  characters : shown = chunks.map Prod.fst
  whole : (chunks.map Prod.snd).flatten = bytes
  encoded : forall chunk, chunk ∈ chunks -> Not (chunk.1 = replacementCharacter) ->
    chunk.2 = String.utf8EncodeChar chunk.1

theorem ReadAs.cons {shown : Text} {bytes : Bytes} {chunks : List (Char × Bytes)} (read : ReadAs shown bytes chunks)
    {character : Char} (front : Bytes)
    (encoded : Not (character = replacementCharacter) -> front = String.utf8EncodeChar character) :
    ReadAs (character :: shown) (front ++ bytes) ((character, front) :: chunks) where
  characters := by rw [List.map_cons, read.characters]
  whole := by rw [List.map_cons, List.flatten_cons, read.whole]
  encoded chunk member := by
    rcases List.mem_cons.mp member with same | later
    · rw [same]
      exact encoded
    · exact read.encoded chunk later

theorem readAs_lossyFrom (bytes : Bytes) : forall (state : Option PartialChar) (front : Bytes),
    Pending state front -> Exists fun chunks => ReadAs (lossyFrom state bytes) (front ++ bytes) chunks := by
  induction bytes with
  | nil =>
      intro state front pending
      have ended : ReadAs [] [] [] := ⟨rfl, rfl, nofun⟩
      cases state with
      | none =>
          rw [show front = [] from pending]
          exact ⟨[], ended⟩
      | some begun => exact ⟨_, ended.cons front fun shown => absurd rfl shown⟩
  | cons byte rest induction =>
      intro state front pending
      have fresh : Exists fun chunks => ReadAs (lossyFrom none (byte :: rest)) (byte :: rest) chunks := by
        rcases firstByte_cases byte.toNat with ⟨small, one⟩ | ⟨begun, leads⟩ | replaced
        · rcases induction none [] rfl with ⟨chunks, read⟩
          rw [lossyFrom, one]
          refine ⟨_, read.cons [byte] fun _ => ?_⟩
          have valid : byte.toNat.isValidChar := Or.inl (by omega)
          have value : (Char.ofNat byte.toNat).toNat = byte.toNat := val_ofNat valid
          rw [utf8EncodeChar_low (by omega), value, UInt8.ofNat_toNat]
        · rw [lossyFrom_leads leads]
          exact induction (some begun) [byte] ⟨leads.missing, fun tail lacks => leads.encodes lacks⟩
        · rcases induction none [] rfl with ⟨chunks, read⟩
          rw [lossyFrom, replaced]
          exact ⟨_, read.cons [byte] fun shown => absurd rfl shown⟩
      cases state with
      | none =>
          rw [show front = [] from pending]
          exact fresh
      | some begun =>
          by_cases within : begun.lower <= byte.toNat /\ byte.toNat <= begun.upper
          · rw [lossyFrom, if_pos (by simpa using within)]
            dsimp only
            split
            · next last =>
                have lacks : Lacks begun.missing begun.lower begun.upper [byte] :=
                  ⟨Nat.le_antisymm last pending.1, within⟩
                have encoded := pending.2 [byte] lacks
                rw [completed_cons, completed_nil] at encoded
                rcases induction none [] rfl with ⟨chunks, read⟩
                have shape : front ++ byte :: rest = (front ++ [byte]) ++ rest := by
                  rw [List.append_assoc, List.singleton_append]
                rw [shape]
                exact ⟨_, read.cons (front ++ [byte]) fun _ => encoded.symm⟩
            · next more =>
                have shape : front ++ byte :: rest = (front ++ [byte]) ++ rest := by
                  rw [List.append_assoc, List.singleton_append]
                rw [shape]
                refine induction _ (front ++ [byte]) ⟨by dsimp only; omega, fun tail lacks => ?_⟩
                cases tail with
                | nil => exact lacks.elim
                | cons next tail =>
                    have more : Lacks begun.missing begun.lower begun.upper (byte :: next :: tail) :=
                      ⟨by omega, within, lacks⟩
                    rw [← completed_cons, pending.2 _ more, List.append_assoc, List.singleton_append]
          · rcases fresh with ⟨chunks, read⟩
            rw [lossyFrom_anew _ within]
            exact ⟨_, read.cons front fun shown => absurd rfl shown⟩

/-- What is shown without replacement characters is there. -/
theorem bytes_of_shown {text : Text} {bytes : Bytes} (plain : replacementCharacter ∉ text)
    (shown : text <:+: fromUtf8Lossy bytes) : encodeUtf8 text <:+: bytes := by
  rcases readAs_lossyFrom bytes none [] rfl with ⟨chunks, read⟩
  rcases shown with ⟨front, back, split⟩
  have characters := read.characters
  change fromUtf8Lossy bytes = _ at characters
  rw [← split] at characters
  rcases List.map_eq_append_iff.mp characters.symm with ⟨earlier, backChunks, chunksSplit, frontShape, _⟩
  rcases List.map_eq_append_iff.mp frontShape with ⟨frontChunks, middle, earlierSplit, _, middleShape⟩
  have own : (middle.map Prod.snd).flatten = encodeUtf8 text := by
    rw [← middleShape, encodeUtf8, List.flatMap_map, List.flatMap_def]
    congr 1
    refine List.map_congr_left fun chunk member => read.encoded chunk ?_ fun replaced => ?_
    · rw [chunksSplit, earlierSplit]
      exact List.mem_append_left _ (List.mem_append_right _ member)
    · refine plain ?_
      rw [← middleShape, ← replaced]
      exact List.mem_map_of_mem member
  refine ⟨(frontChunks.map Prod.snd).flatten, (backChunks.map Prod.snd).flatten, ?_⟩
  have whole := read.whole
  rw [chunksSplit, earlierSplit, List.map_append, List.map_append, List.flatten_append,
    List.flatten_append, own] at whole
  exact whole

end Foundations
end Agapornis
