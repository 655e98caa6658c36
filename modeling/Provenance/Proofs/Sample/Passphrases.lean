import Mathlib.Data.List.Chain
import Provenance.Proofs.Chain.Growth
import Provenance.Proofs.Chain.Offers
import Provenance.Proofs.Text.Ambiguity
import Provenance.Sample.Fixture
set_option autoImplicit false

/-!
# Passphrases: which chains they build

A chain can be built from passphrases alone.  Each of them is turned into a key at the
moment it is used, and that key is made for the position of the last element.  So the
first two keys are both made for the first position, and every later one for the position
before its own (`Passphrases.position`).

Two neighbours for one position come from the same text only if they are one passphrase,
and neighbours for different positions never do, however many digits these have.  So the
only thing that can go wrong is that the first passphrase is used twice in a row
(`build_of_passphrases`), unless two different texts have one digest.
-/

namespace Provenance

namespace Passphrases

/-! ## Keys and the texts they come from -/

/-- The position that the key at an index is made for: that of the element before it, or
the first one if there is none. -/
def position (index : Nat) : Position := .ofNat (index - 1)

/-- The keys of passphrases that are used one after another. -/
def keys (token : Token) (passphrases : List String) : List Key :=
  passphrases.mapIdx fun index => .derive (position index) token

/-- The texts that are hashed for these keys. -/
def sources (token : Token) (passphrases : List String) : List String :=
  passphrases.mapIdx fun index => Key.source (position index) token

/-- Whether the first passphrase is also the second one. -/
def RepeatsFirst (passphrases : List String) : Prop :=
  ∃ first later, passphrases = first :: first :: later

/-- Neighbouring texts have different digests. -/
def Separated (texts : List String) : Prop :=
  texts.IsChain fun earlier later => digest earlier ≠ digest later

variable {token : Token} {passphrases : List String}

@[simp] theorem length_keys (token : Token) (passphrases : List String) :
    (keys token passphrases).length = passphrases.length :=
  List.length_mapIdx

theorem keys_concat (token : Token) (passphrases : List String) (passphrase : String) :
    keys token (passphrases ++ [passphrase]) =
      keys token passphrases ++ [.derive (position passphrases.length) token passphrase] :=
  List.mapIdx_concat

/-- Neighbouring keys differ exactly if the digests of their texts do. -/
theorem isChain_keys_iff :
    (keys token passphrases).IsChain (· ≠ ·) ↔ Separated (sources token passphrases) := by
  rw [Separated, List.isChain_iff_getElem, List.isChain_iff_getElem]
  simp only [keys, sources, List.length_mapIdx, List.getElem_mapIdx, Key.derive, ne_eq,
    Key.mk.injEq, hash_eq_hash_iff]

/-- **Neighbouring texts differ**, unless the first two passphrases are one. -/
theorem isChain_sources (distinct : ¬RepeatsFirst passphrases)
    (fits : passphrases.length ≤ UInt64.size) :
    (sources token passphrases).IsChain (· ≠ ·) := by
  rw [List.isChain_iff_getElem]
  intro i inside
  rw [sources, List.length_mapIdx] at inside
  simp only [sources, List.getElem_mapIdx]
  cases i with
  | zero =>
    -- Both texts are made for the first position, so the passphrases tell them apart.
    intro same
    obtain ⟨first, second, later, rfl⟩ : ∃ first second later,
        passphrases = first :: second :: later := by
      match passphrases, inside with
      | first :: second :: later, _ => exact ⟨first, second, later, rfl⟩
    have equal : first = second := Key.source_injective (position 0) token same
    exact distinct ⟨first, later, by rw [equal]⟩
  | succ i =>
    refine Key.source_ne_of_succ ?_ token _ _
    rw [position, position, Nat.add_sub_cancel, Nat.add_sub_cancel,
      UInt64.toNat_ofNat_of_lt' (by omega), UInt64.toNat_ofNat_of_lt' (by omega)]

end Passphrases

open Passphrases (keys sources position RepeatsFirst Separated)

/-! ## One passphrase more -/

namespace Chain

/-- The passphrase that a chain starts with, if there is one. -/
def Start.passphrases : Start → List String
  | .vacant .. => []
  | .held _ passphrase => [passphrase]

theorem Start.keys_eq (start : Start) :
    start.keys = Passphrases.keys start.chain.token start.passphrases := by
  cases start <;> rfl

variable {start : Start} {past : List String} {keys : List Key} {c : Chain}

theorem lastPosition_of_reached (reached : Reached start keys c) :
    c.lastPosition = position keys.length := by
  have ids := map_id_of_reached reached
  rw [lastPosition, last?]
  cases elements : c.newestFirst with
  | nil =>
    rw [elements] at ids
    rw [← Position.length_countdown keys.length, ← ids]
    rfl
  | cons last older =>
    rw [elements] at ids
    cases counted : keys.length with
    | zero => rw [counted] at ids; cases ids
    | succ n =>
      rw [counted] at ids
      exact (List.cons.inj ids).1

theorem map_key_elements_of_reached (reached : Reached start keys c) :
    c.elements.map Element.key = keys := by
  rw [elements, reached.elements, List.reverse_reverse]
  cases start with
  | vacant token expectedLength => exact History.map_key_rows token keys
  | held data passphrase =>
    refine Eq.trans ?_ (History.map_key_rows (.ofData data) keys)
    rw [Start.rows]
    cases History.rows (.ofData data) keys <;> rfl

theorem map_key_last?_of_reached (reached : Reached start keys c) :
    c.last?.map Element.key = keys.getLast? := by
  rw [← map_key_elements_of_reached reached, List.getLast?_map, elements, List.getLast?_reverse,
    last?]

/-- A chain that was built from passphrases makes the next key for its last position. -/
theorem key_of_reached
    (reached : Reached start (Passphrases.keys start.chain.token past) c) (passphrase : String) :
    Passphrases.keys start.chain.token past ++ [c.key passphrase] =
      Passphrases.keys start.chain.token (past ++ [passphrase]) := by
  rw [Passphrases.keys_concat, key, keyAt, lastPosition_of_reached reached, reached.token,
    Passphrases.length_keys]

/-- The key of the last element is refused. -/
theorem handOver_of_holding {key : Key} (holds : c.last?.map Element.key = some key) :
    c.handOver key = .error (.alreadyBound c.lastPosition) := by
  obtain ⟨last, ends, same⟩ := Option.map_eq_some_iff.mp holds
  rw [lastPosition, ends]
  exact handOver_eq_error_iff.mpr ⟨last, ends, .inl ⟨.inl same, rfl⟩⟩

/-- Any other key is accepted, as long as there is a next position. -/
theorem exists_handOver_of_reached (reached : Reached start keys c) {key : Key}
    (differs : keys.getLast? ≠ some key) (room : keys.length < UInt64.size) :
    ∃ c' change, c.handOver key = .ok (c', change) := by
  refine (handOver_of_free reached.free key).1.mpr fun last ends => ⟨fun same => ?_, ?_⟩
  · rw [← map_key_last?_of_reached reached, ends] at differs
    exact differs (congrArg some same)
  · have counted := lastPosition_of_reached reached
    rw [lastPosition, ends] at counted
    have index : last.id.toNat = keys.length - 1 := by
      rw [show last.id = _ from counted, position, UInt64.toNat_ofNat_of_lt' (by omega)]
    have greatest : Position.greatest.toNat = 2 ^ 64 - 1 := rfl
    have size : UInt64.size = 2 ^ 64 := rfl
    rw [← Position.lt_greatest_iff, UInt64.lt_iff_toNat_lt]
    omega

end Chain

/-! ## Building -/

namespace Recipe

variable {start : Chain.Start} {passphrases : List String} {c : Chain}

theorem handOverAll_append (c : Chain) (first second : List KeySource) :
    handOverAll c (first ++ second) =
      (handOverAll c first).bind fun c' => handOverAll c' second :=
  List.foldlM_append

theorem handOverAll_cons (c : Chain) (source : KeySource) (sources : List KeySource) :
    handOverAll c (source :: sources) =
      ((c.handOver (c.keyFrom source)).map Prod.fst).bind fun c' => handOverAll c' sources :=
  List.foldlM_cons

/-- **A chain that was built went from key to key**, and neighbouring keys differ. -/
theorem reached_of_built (built : handOverAll start.chain (passphrases.map .current) = .ok c) :
    Chain.Reached start (keys start.chain.token (start.passphrases ++ passphrases)) c ∧
      (keys start.chain.token (start.passphrases ++ passphrases)).IsChain (· ≠ ·) := by
  induction passphrases using List.reverseRecOn generalizing c with
  | nil =>
    obtain rfl := Except.ok.inj built
    rw [List.append_nil, ← start.keys_eq]
    refine ⟨Chain.reached_start start, ?_⟩
    cases start with
    | vacant token expectedLength => exact .nil
    | held data passphrase => exact .singleton _
  | append_singleton passphrases passphrase ih =>
    rw [List.map_append, handOverAll_append] at built
    cases before : handOverAll start.chain (passphrases.map .current) with
    | error e =>
      rw [before] at built
      cases built
    | ok d =>
      obtain ⟨reached, differ⟩ := ih before
      rw [before, List.map_singleton] at built
      cases accepted : d.handOver (d.key passphrase) with
      | error e =>
        rw [Except.bind, handOverAll_cons, Chain.keyFrom, accepted] at built
        cases built
      | ok outcome =>
        rw [Except.bind, handOverAll_cons, Chain.keyFrom, accepted] at built
        obtain rfl : outcome.1 = c := Except.ok.inj built
        rw [← List.append_assoc, ← Chain.key_of_reached reached]
        refine ⟨Chain.reached_handOver reached accepted, ?_⟩
        refine List.isChain_append.mpr ⟨differ, .singleton _, fun last ends key same => ?_⟩
        obtain rfl := Option.some.inj same
        rintro rfl
        have holds := (Chain.map_key_last?_of_reached reached).trans ends
        cases accepted.symm.trans (Chain.handOver_of_holding holds)

/-- Different neighbours are a chain, as long as there are positions for them. -/
theorem exists_built
    (differ : (keys start.chain.token (start.passphrases ++ passphrases)).IsChain (· ≠ ·))
    (fits : (start.passphrases ++ passphrases).length ≤ UInt64.size) :
    ∃ c, handOverAll start.chain (passphrases.map .current) = .ok c := by
  induction passphrases using List.reverseRecOn with
  | nil => exact ⟨start.chain, rfl⟩
  | append_singleton passphrases passphrase ih =>
    rw [← List.append_assoc] at differ fits
    rw [List.length_append, List.length_singleton] at fits
    rw [Passphrases.keys_concat] at differ
    obtain ⟨earlier, _, last⟩ := List.isChain_append.mp differ
    obtain ⟨c, before⟩ := ih earlier (Nat.le_of_succ_le fits)
    obtain ⟨reached, _⟩ := reached_of_built before
    have next := Chain.key_of_reached reached passphrase
    rw [Passphrases.keys_concat] at next
    rw [← List.append_cancel_left next] at last
    obtain ⟨c', change, accepted⟩ := Chain.exists_handOver_of_reached reached
      (fun same => last _ same _ rfl rfl) (by rw [Passphrases.length_keys]; exact fits)
    refine ⟨c', ?_⟩
    rw [List.map_append, handOverAll_append, before, List.map_singleton, Except.bind,
      handOverAll_cons, Chain.keyFrom, accepted]
    rfl

/-- A repeated first passphrase is refused at the first position. -/
theorem handOverAll_of_repeatsFirst (repeats : RepeatsFirst (start.passphrases ++ passphrases)) :
    handOverAll start.chain (passphrases.map .current) = .error (.alreadyBound 0) := by
  obtain ⟨first, later, same⟩ := repeats
  obtain ⟨before, rfl, begins⟩ : ∃ before, passphrases = before ++ first :: later ∧
      start.passphrases ++ before = [first] := by
    cases start with
    | vacant token expectedLength => exact ⟨[first], same, rfl⟩
    | held data passphrase =>
      obtain ⟨rfl, rest⟩ := List.cons.inj same
      exact ⟨[], rest, rfl⟩
  obtain ⟨c, built⟩ : ∃ c, handOverAll start.chain (before.map .current) = .ok c :=
    exists_built (begins ▸ .singleton _) (by rw [begins]; exact Nat.le_of_ble_eq_true rfl)
  obtain ⟨reached, _⟩ := reached_of_built built
  rw [begins] at reached
  have position := Chain.lastPosition_of_reached reached
  have holds : c.last?.map Element.key = some (c.key first) := by
    rw [Chain.map_key_last?_of_reached reached, Chain.key, Chain.keyAt, position, reached.token]
    rfl
  rw [List.map_append, handOverAll_append, built, List.map_cons, Except.bind, handOverAll_cons,
    Chain.keyFrom, Chain.handOver_of_holding holds, position]
  rfl

/-- A chain that has gone through the keys of passphrases: every link holds, the ids count
from zero, and there is one element for each passphrase, with its key. -/
structure WentThrough (t : Token) (passphrases : List String) (c : Chain) : Prop where
  token : c.token = t
  valid : c.isValid = true
  ids : c.elements.map (fun e => e.id.toNat) = List.range passphrases.length
  keys : c.elements.map Element.key = keys t passphrases

theorem wentThrough_of_reached
    (reached : Chain.Reached start (keys start.chain.token passphrases) c) :
    WentThrough start.chain.token passphrases c where
  token := reached.token
  valid := by rw [Chain.isValid, reached.intact, Option.isNone_none]
  ids := by
    have ids := Chain.map_id_of_reached reached
    have fits := Chain.length_le_of_reached reached
    rw [Passphrases.length_keys] at ids fits
    rw [← Position.map_toNat_reverse_countdown fits, ← ids, Chain.elements, List.map_reverse,
      List.map_reverse, List.map_map]
    rfl
  keys := Chain.map_key_elements_of_reached reached

/-- What comes of passphrases: which answer there is, and which chain.  It depends on nothing
but the digests of neighbouring texts, as long as there are positions for all of them. -/
structure Decided (t : Token) (passphrases : List String)
    (built : Except ChainError Chain) : Prop where
  refused : RepeatsFirst passphrases → built = .error (.alreadyBound 0)
  texts : ¬RepeatsFirst passphrases → passphrases.length ≤ UInt64.size →
    (sources t passphrases).IsChain (· ≠ ·)
  built_iff : (∃ c, built = .ok c) ↔
    passphrases.length ≤ UInt64.size ∧ Separated (sources t passphrases)
  wentThrough : ∀ c, built = .ok c → WentThrough t passphrases c

theorem decided (start : Chain.Start) (passphrases : List String) :
    Decided start.chain.token (start.passphrases ++ passphrases)
      (handOverAll start.chain (passphrases.map .current)) where
  refused := handOverAll_of_repeatsFirst
  texts := Passphrases.isChain_sources
  built_iff := by
    rw [← Passphrases.isChain_keys_iff]
    constructor
    · rintro ⟨c, built⟩
      obtain ⟨reached, differ⟩ := reached_of_built built
      have fits := Chain.length_le_of_reached reached
      rw [Passphrases.length_keys] at fits
      exact ⟨fits, differ⟩
    · rintro ⟨fits, differ⟩
      exact exists_built differ fits
  wentThrough c built := wentThrough_of_reached (reached_of_built built).1

/-- The passphrases of the first owners. -/
def owners (count : Nat) : List String := (List.range count).map ownerPassphrase

/-- Owners have different passphrases. -/
theorem not_repeatsFirst_owners (n : Nat) : ¬RepeatsFirst (owners n) := by
  rintro ⟨first, later, same⟩
  have zero := congrArg (·[0]?) same
  have one := congrArg (·[1]?) same
  simp only [owners, List.getElem?_map, List.getElem?_cons_zero, List.getElem?_cons_succ]
    at zero one
  obtain ⟨i, found, rfl⟩ := Option.map_eq_some_iff.mp zero
  obtain ⟨j, found', again⟩ := Option.map_eq_some_iff.mp one
  obtain ⟨_, rfl⟩ := List.getElem?_eq_some_iff.mp found
  obtain ⟨_, rfl⟩ := List.getElem?_eq_some_iff.mp found'
  rw [List.getElem_range, List.getElem_range] at again
  exact absurd again (by decide)

/-- **Only a repeated first passphrase can stop a chain.**  Whatever data and passphrases a
chain is built from, with or without a first holder:

* if the first passphrase is also the second one, the answer is that the first position is
  bound already;
* if it is not, then each two neighbouring keys are hashed from different texts;
* the chain is built exactly if there are positions for all passphrases and the digests of
  these texts differ too.  Then every link holds, the ids count from zero, and each
  passphrase has one element, with its key.

The chain of numbered owners never repeats the first passphrase, so there it all depends on
the digests. -/
theorem build_of_passphrases (data : List UInt8) (bootstrap : Option String)
    (passphrases : List String) :
    Decided (.ofData data) (bootstrap.toList ++ passphrases)
        (ofPassphrases data bootstrap passphrases).build ∧
      ∀ (f : Fixture) (n : Nat), n ≤ UInt64.size →
        (sources f.token (owners n)).IsChain (· ≠ ·) ∧
          (Separated (sources f.token (owners n)) →
            ∃ c, f.buildChain n = .ok c ∧ WentThrough f.token (owners n) c) := by
  refine ⟨?_, fun f n fits => ?_⟩
  · cases bootstrap with
    | none => exact decided (.vacant (.ofData data) 0) passphrases
    | some passphrase => exact decided (.held data passphrase) passphrases
  · have built : Decided f.token (owners n) (f.buildChain n) := by
      have vacant := decided (.vacant f.token (.ofNat n)) (owners n)
      rw [owners, List.map_map] at vacant
      exact vacant
    have room : (owners n).length ≤ UInt64.size := by
      rw [owners, List.length_map, List.length_range]
      exact fits
    refine ⟨built.texts (not_repeatsFirst_owners n) room, fun separated => ?_⟩
    obtain ⟨c, accepted⟩ := built.built_iff.mpr ⟨room, separated⟩
    exact ⟨c, accepted, built.wentThrough c accepted⟩

end Recipe

end Provenance
