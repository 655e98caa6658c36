import Provenance.Commitment
import Provenance.Proofs.Text.Decimal
import Provenance.Proofs.Text.Hex
set_option autoImplicit false

/-!
# Ambiguity: what a hashed text tells

The texts that are hashed have no marks between their parts, so what they tell depends
on the sizes of these.

A key is hashed from the digits of a position, a token and a passphrase of any size.
Most such texts tell the position and the passphrase, but not all of them: where a token
repeats some digits over and over, these digits can be taken for the end of the position
or for the beginning of the token, and a longer passphrase makes up for that
(`Key.RunsInto`).  `Key.source_ambiguous_iff` says that there is no other way for two texts
to be the same, and `Key.source_of_ones` is such a token.

A generator is hashed from a position, a token and a key.  Tokens and keys that are
hashes themselves have one size, and then the text tells all three of them
(`Generator.source_unambiguous`).
-/

namespace Provenance

/-! ## Repeated blocks -/

namespace Text

variable {block text rest : List Char}

/-- The text is a block over and over again; the last time it may be cut off. -/
def Repeats (block text : List Char) : Prop :=
  ∀ k c, text[k]? = some c → block[k % block.length]? = some c

/-- A text with a block in front of it that is also a beginning of the whole repeats the
block: each character is the one that stands a block before it. -/
theorem repeats_of_append_eq (filled : block ≠ []) (same : block ++ text = text ++ rest) :
    Repeats block (text ++ rest) := by
  have positive : 0 < block.length := List.length_pos_iff.mpr filled
  intro k
  induction k using Nat.strongRecOn with
  | ind k ih =>
    intro c there
    rw [← same] at there
    by_cases inside : k < block.length
    · rw [List.getElem?_append_left inside] at there
      rwa [Nat.mod_eq_of_lt inside]
    · have reach : block.length ≤ k := Nat.le_of_not_lt inside
      rw [List.getElem?_append_right reach] at there
      have short : k - block.length < text.length := (List.getElem?_eq_some_iff.mp there).1
      rw [Nat.mod_eq_sub_mod reach]
      refine ih _ (Nat.sub_lt_of_pos_le positive reach) c ?_
      rwa [List.getElem?_append_left short]

/-- And the other way round. -/
theorem append_eq_of_repeats (size : rest.length = block.length)
    (repeats : Repeats block (text ++ rest)) : block ++ text = text ++ rest := by
  refine List.ext_getElem? fun k => ?_
  by_cases inside : k < block.length
  · have whole : k < (text ++ rest).length := by
      rw [List.length_append]
      omega
    have read := repeats k _ (List.getElem?_eq_getElem whole)
    rw [Nat.mod_eq_of_lt inside] at read
    rw [List.getElem?_append_left inside, read, List.getElem?_eq_getElem whole]
  · have reach : block.length ≤ k := Nat.le_of_not_lt inside
    rw [List.getElem?_append_right reach]
    by_cases short : k - block.length < text.length
    · have whole : k < (text ++ rest).length := by
        rw [List.length_append]
        omega
      have before : k - block.length < (text ++ rest).length := by omega
      have here := repeats k _ (List.getElem?_eq_getElem whole)
      have earlier := repeats (k - block.length) _ (List.getElem?_eq_getElem before)
      rw [Nat.mod_eq_sub_mod reach] at here
      rw [List.getElem?_eq_getElem whole, ← here, earlier, ← List.getElem?_eq_getElem before,
        List.getElem?_append_left short]
    · rw [List.getElem?_eq_none (Nat.le_of_not_lt short), List.getElem?_eq_none]
      rw [List.length_append]
      omega

/-- What is repeated is made of the characters of the block. -/
theorem mem_of_repeats (repeats : Repeats block text) {c : Char} (member : c ∈ text) :
    c ∈ block := by
  obtain ⟨k, there⟩ := List.mem_iff_getElem?.mp member
  exact List.mem_of_getElem? (repeats k c there)

end Text

/-! ## Keys -/

namespace Key

variable {token : Token} {position position' : Position} {passphrase passphrase' : String}

/-- The text of a key can be read with a longer position: the digits of that one are those
of the other and a block more, the token and some characters after it repeat the block,
and the passphrase is these characters and the other passphrase. -/
def RunsInto (token : Token) (position : Position) (passphrase : String)
    (position' : Position) (passphrase' : String) : Prop :=
  ∃ block rest, block ≠ [] ∧
    position'.toNat.repr.toList = position.toNat.repr.toList ++ block ∧
    rest.length = block.length ∧ Text.Repeats block (token.text.toList ++ rest) ∧
    passphrase.toList = rest ++ passphrase'.toList

/-- The text of a key as a list of characters. -/
theorem toList_source (position : Position) (token : Token) (passphrase : String) :
    (source position token passphrase).toList =
      position.toNat.repr.toList ++ (token.text.toList ++ passphrase.toList) := by
  rw [source, Part.joined_number, String.toList_append, String.toList_append]

/-- At one position passphrases are told apart. -/
theorem source_injective (position : Position) (token : Token) :
    Function.Injective (source position token) := by
  intro passphrase passphrase' same
  rw [source, source, Part.joined_number, Part.joined_number] at same
  exact String.append_right_inj _ |>.mp (String.append_right_inj _ |>.mp same)

theorem source_eq_of_runsInto (runs : RunsInto token position passphrase position' passphrase') :
    source position token passphrase = source position' token passphrase' := by
  obtain ⟨block, rest, _, digits, size, repeats, phrase⟩ := runs
  refine String.toList_inj.mp ?_
  rw [toList_source, toList_source, digits, phrase, List.append_assoc]
  refine congrArg (position.toNat.repr.toList ++ ·) ?_
  rw [← List.append_assoc, ← List.append_assoc, Text.append_eq_of_repeats size repeats]

/-- If two texts are the same and the digits of the one position begin those of the other
one, then the two positions are equal, or the text runs on. -/
theorem runsInto_of_digits {block : List Char}
    (digits : position'.toNat.repr.toList = position.toNat.repr.toList ++ block)
    (same : token.text.toList ++ passphrase.toList =
      block ++ (token.text.toList ++ passphrase'.toList)) :
    position = position' ∧ passphrase = passphrase' ∨
      RunsInto token position passphrase position' passphrase' := by
  by_cases filled : block = []
  · subst filled
    rw [List.append_nil] at digits
    rw [List.nil_append] at same
    refine .inl ⟨?_, String.toList_inj.mp (List.append_cancel_left same)⟩
    exact UInt64.toNat_inj.mp (Decimal.repr_injective (String.toList_inj.mp digits.symm))
  · rw [← List.append_assoc] at same
    have beginning : token.text.toList <+: block ++ token.text.toList := by
      refine List.prefix_of_prefix_length_le (List.prefix_append _ passphrase.toList) ?_ ?_
      · rw [same]
        exact List.prefix_append _ _
      · rw [List.length_append]
        exact Nat.le_add_left _ _
    obtain ⟨rest, whole⟩ := beginning
    refine .inr ⟨block, rest, filled, digits, ?_, Text.repeats_of_append_eq filled whole.symm, ?_⟩
    · have sizes := congrArg List.length whole
      rw [List.length_append, List.length_append] at sizes
      omega
    · rw [← whole, List.append_assoc] at same
      exact List.append_cancel_left same

/-- Texts of keys are the same for equal positions and passphrases, and where one of them
can be read with a longer position. -/
theorem source_eq_source_iff :
    source position token passphrase = source position' token passphrase' ↔
      position = position' ∧ passphrase = passphrase' ∨
        RunsInto token position passphrase position' passphrase' ∨
        RunsInto token position' passphrase' position passphrase := by
  constructor
  · intro same
    have texts := congrArg String.toList same
    rw [toList_source, toList_source, List.append_eq_append_iff] at texts
    rcases texts with ⟨block, digits, rest⟩ | ⟨block, digits, rest⟩
    · exact (runsInto_of_digits digits rest).imp_right .inl
    · rcases runsInto_of_digits digits rest with ⟨rfl, rfl⟩ | runs
      · exact .inl ⟨rfl, rfl⟩
      · exact .inr (.inr runs)
  · rintro (⟨rfl, rfl⟩ | runs | runs)
    · rfl
    · exact source_eq_of_runsInto runs
    · exact (source_eq_of_runsInto runs).symm

/-- Digits of a position are decimal, and there are at most twenty. -/
theorem digits_of_position (position : Position) :
    position.toNat.repr.toList.length ≤ 20 ∧
      ∀ c ∈ position.toNat.repr.toList, c.isDigit = true := by
  rw [Nat.toList_repr]
  refine ⟨(Nat.length_toDigits_le_iff (by decide) (by decide)).mpr ?_, fun c member => ?_⟩
  · exact Nat.lt_trans position.toNat_lt (by decide)
  · exact Nat.isDigit_of_mem_toDigits (by decide) (by decide) member

/-- A token whose texts run on repeats a block of less than twenty decimal digits. -/
theorem exists_block_of_runsInto
    (runs : RunsInto token position passphrase position' passphrase') :
    ∃ block, block ≠ [] ∧ block.length < 20 ∧ (∀ c ∈ block, c.isDigit = true) ∧
      Text.Repeats block token.text.toList := by
  obtain ⟨block, rest, filled, digits, _, repeats, _⟩ := runs
  obtain ⟨small, decimal⟩ := digits_of_position position'
  rw [digits, List.length_append] at small
  have started : 0 < position.toNat.repr.toList.length := by
    rw [Nat.toList_repr]
    exact Nat.length_toDigits_pos
  refine ⟨block, filled, by omega, fun c member => ?_, fun k c there => repeats k c ?_⟩
  · exact decimal c (digits ▸ List.mem_append_right _ member)
  · rw [List.getElem?_append_left (List.getElem?_eq_some_iff.mp there).1]
    exact there

/-- A token with a character that is no decimal digit has no texts that run on. -/
theorem not_runsInto_of_letter {c : Char} (member : c ∈ token.text.toList)
    (letter : c.isDigit = false) :
    ¬RunsInto token position passphrase position' passphrase' := by
  intro runs
  obtain ⟨block, _, _, decimal, repeats⟩ := exists_block_of_runsInto runs
  rw [decimal c (Text.mem_of_repeats repeats member)] at letter
  cases letter

/-- **When two texts of keys are the same.**  For any token, and so for each that can be
parsed, and for any two positions and passphrases:

* what is hashed for the two keys is the same text exactly if the positions and the
  passphrases are equal, or one of the two texts runs into the other;
* texts run on for no other tokens than those that repeat a block of less than twenty
  decimal digits;
* so where the token has any other character, as `A` to `F`, its texts tell the position
  and the passphrase;
* if the two keys are one, then positions and passphrases are equal, or one text runs into
  the other, or two different texts have one digest. -/
theorem source_ambiguous_iff (token : Token) (position position' : Position)
    (passphrase passphrase' : String) :
    (source position token passphrase = source position' token passphrase' ↔
      position = position' ∧ passphrase = passphrase' ∨
        RunsInto token position passphrase position' passphrase' ∨
        RunsInto token position' passphrase' position passphrase) ∧
    (RunsInto token position passphrase position' passphrase' →
      ∃ block, block ≠ [] ∧ block.length < 20 ∧ (∀ c ∈ block, c.isDigit = true) ∧
        Text.Repeats block token.text.toList) ∧
    ((∃ c ∈ token.text.toList, c.isDigit = false) →
      (source position token passphrase = source position' token passphrase' ↔
        position = position' ∧ passphrase = passphrase')) ∧
    (derive position token passphrase = derive position' token passphrase' →
      (position = position' ∧ passphrase = passphrase') ∨
        RunsInto token position passphrase position' passphrase' ∨
        RunsInto token position' passphrase' position passphrase ∨
        (source position token passphrase ≠ source position' token passphrase' ∧
          digest (source position token passphrase) =
            digest (source position' token passphrase'))) := by
  refine ⟨source_eq_source_iff, exists_block_of_runsInto, fun ⟨c, member, letter⟩ => ?_,
    fun same => ?_⟩
  · rw [source_eq_source_iff]
    exact or_iff_left (not_or.mpr
      ⟨not_runsInto_of_letter member letter, not_runsInto_of_letter member letter⟩)
  · by_cases texts : source position token passphrase = source position' token passphrase'
    · rcases source_eq_source_iff.mp texts with equal | runs | runs
      · exact .inl equal
      · exact .inr (.inl runs)
      · exact .inr (.inr (.inl runs))
    · exact .inr (.inr (.inr ⟨texts, hash_eq_hash_iff.mp (congrArg Key.text same)⟩))

end Key

/-- The digits of as many bytes as a hash has are parsed as the token that they are in
upper case. -/
theorem Token.parse_encode (case : Hex.Case) {bytes : List UInt8} (size : bytes.length = 32) :
    parse (Hex.encode case bytes) = .ok ⟨Hex.encode .upper bytes⟩ := by
  unfold parse
  rw [Hex.decode_encode]
  exact if_pos size

/-- A token of nothing but ones. -/
def Token.ones : Token := ⟨String.ofList (List.replicate 64 '1')⟩

theorem Token.parse_ones : parse ones.text = .ok ones := by
  have digits : ones = ⟨Hex.encode .upper (List.replicate 32 0x11)⟩ := by decide
  rw [digits]
  exact parse_encode .upper List.length_replicate

theorem Key.source_ones : source 1 .ones "1" = source 11 .ones "" := by
  decide

/-- A token that can be parsed, with one text and one key for two different positions and
passphrases: of the ones, it cannot be told which of them belong to the position. -/
theorem Key.source_of_ones :
    Token.parse Token.ones.text = .ok .ones ∧ ((1, "1") : Position × String) ≠ (11, "") ∧
      source 1 .ones "1" = source 11 .ones "" ∧ derive 1 .ones "1" = derive 11 .ones "" := by
  refine ⟨Token.parse_ones, by decide, source_ones, ?_⟩
  rw [derive, derive, source_ones]

/-! ## Generators -/

theorem Token.text_injective : Function.Injective Token.text := by
  intro ⟨_⟩ ⟨_⟩ same
  exact congrArg Token.mk same

theorem Key.text_injective : Function.Injective Key.text := by
  intro ⟨_⟩ ⟨_⟩ same
  exact congrArg Key.mk same

/-- A token that is a hash: that of some data, or one that was read from its digits. -/
inductive Token.IsHash : Token → Prop where
  | ofData (data : List UInt8) : IsHash (.ofData data)
  | parsed {text : String} {token : Token} (read : Token.parse text = .ok token) : IsHash token

theorem Token.IsHash.utf8ByteSize {token : Token} (made : token.IsHash) :
    token.text.utf8ByteSize = 64 := by
  cases made with
  | ofData data => rw [Token.ofData, hashBytes, Hex.utf8ByteSize_encode, Vector.length_toList]
  | @parsed text _ read =>
    unfold Token.parse at read
    split at read
    · cases read
    · split at read
      case isTrue size =>
        obtain rfl := Except.ok.inj read
        rw [Hex.utf8ByteSize_encode, size]
      case isFalse => cases read

/-- A number before two texts of known sizes is told from them, and they from each other. -/
theorem Part.joined_number_inj {m n : Nat} {s s' t t' : String}
    (sizes : s.utf8ByteSize = s'.utf8ByteSize) (sizes' : t.utf8ByteSize = t'.utf8ByteSize) :
    joined [.integer m, .text s, .text t] = joined [.integer n, .text s', .text t'] ↔
      m = n ∧ s = s' ∧ t = t' := by
  constructor
  · intro same
    rw [joined_number, joined_number] at same
    have whole : (s ++ t).utf8ByteSize = (s' ++ t').utf8ByteSize := by
      rw [String.utf8ByteSize_append, String.utf8ByteSize_append, sizes, sizes']
    obtain ⟨rfl, texts⟩ := Decimal.repr_append_inj same whole
    have bytes := congrArg Text.utf8 texts
    rw [Text.utf8_append, Text.utf8_append] at bytes
    rw [← Text.length_utf8, ← Text.length_utf8] at sizes
    obtain ⟨first, second⟩ := List.append_inj bytes sizes
    exact ⟨rfl, Text.utf8_injective first, Text.utf8_injective second⟩
  · rintro ⟨rfl, rfl, rfl⟩
    rfl

namespace Generator

/-- **The text of a generator tells what it commits to.**  For any two positions:

* what is hashed for two generators, of tokens that are hashes and of keys that were
  derived, is the same text only if the positions, the tokens and the keys are equal;
* the same holds of a position before any two texts, as long as the first ones have one
  size and the second ones have one size, in bytes;
* for one token and one passphrase, the keys of different positions are hashed from
  different texts. -/
theorem source_unambiguous {token token' : Token} (made : token.IsHash) (made' : token'.IsHash)
    (position position' : Position) :
    (∀ (p p' : Position) (origin origin' : Token) (passphrase passphrase' : String),
      let key := Key.derive p origin passphrase
      let key' := Key.derive p' origin' passphrase'
      source position token key = source position' token' key' ↔
        position = position' ∧ token = token' ∧ key = key') ∧
    (∀ s s' t t' : String, s.utf8ByteSize = s'.utf8ByteSize →
      t.utf8ByteSize = t'.utf8ByteSize →
      (Part.joined [.integer position.toNat, .text s, .text t] =
          Part.joined [.integer position'.toNat, .text s', .text t'] ↔
        position = position' ∧ s = s' ∧ t = t')) ∧
    ∀ (any : Token) (passphrase : String),
      Key.source position any passphrase = Key.source position' any passphrase ↔
        position = position' := by
  have general : ∀ s s' t t' : String, s.utf8ByteSize = s'.utf8ByteSize →
      t.utf8ByteSize = t'.utf8ByteSize →
      (Part.joined [.integer position.toNat, .text s, .text t] =
          Part.joined [.integer position'.toNat, .text s', .text t'] ↔
        position = position' ∧ s = s' ∧ t = t') := by
    intro s s' t t' sizes sizes'
    rw [Part.joined_number_inj sizes sizes', UInt64.toNat_inj]
  refine ⟨fun p p' origin origin' passphrase passphrase' => ?_, general, fun any passphrase => ?_⟩
  · intro key key'
    have sizes : token.text.utf8ByteSize = token'.text.utf8ByteSize :=
      made.utf8ByteSize.trans made'.utf8ByteSize.symm
    have sizes' : key.text.utf8ByteSize = key'.text.utf8ByteSize :=
      (utf8ByteSize_hash _).trans (utf8ByteSize_hash _).symm
    rw [source, source, general _ _ _ _ sizes sizes', Token.text_injective.eq_iff,
      Key.text_injective.eq_iff]
  · rw [Key.source, Key.source, general _ _ _ _ rfl rfl]
    exact and_iff_left ⟨rfl, rfl⟩

/-- The one key that a token of ones has for two positions is committed to by different
texts there. -/
theorem source_unambiguous_ones :
    Token.IsHash .ones ∧ Key.derive 1 .ones "1" = Key.derive 11 .ones "" ∧
      source 1 .ones (.derive 1 .ones "1") ≠ source 11 .ones (.derive 11 .ones "") := by
  have made : Token.IsHash .ones := .parsed Token.parse_ones
  refine ⟨made, by rw [Key.derive, Key.derive, Key.source_ones], fun same => ?_⟩
  have equal := ((source_unambiguous made made 1 11).1 1 11 .ones .ones "1" "").mp same
  exact absurd equal.1 (by decide)

end Generator

end Provenance
