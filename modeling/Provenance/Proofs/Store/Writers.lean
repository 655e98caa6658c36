import Provenance.Proofs.Ledger.Progress
import Provenance.Proofs.Store.Run
set_option autoImplicit false

/-!
# Writers: transfers made apart and stored in any order

Any number of writers keep private chains of one token.  A private chain is loaded
from the store at some moment, or started anew, and then handed over again and
again without asking the store.  Every reported change can be submitted to the
store at any time, in any order, more than once, or never.

The store compares nothing but positions, so it may accept a change that was made
on a chain with other keys than its own.  `rows_of_run` says why its rows are
intact all the same: every private chain starts at the first position, so what its
writer reports at a position depends on that position and the key alone, and the
rows are at every moment the history of the keys that were accepted.
-/

namespace Provenance

/-- The writers of one token and the store they share. -/
structure Writers where
  store : Store
  /-- The chain that each writer works on, once there is one. -/
  chains : Nat → Option Chain := fun _ => none
  /-- The changes reported so far, with the keys they are for. -/
  made : List (Change × Key) := []
  /-- The keys of the submissions that the store has accepted, in their order. -/
  accepted : List Key := []

namespace Writers

/-- Something that a writer does. -/
inductive Action where
  /-- Loads the chain from the store. -/
  | load (writer : Nat)
  /-- Starts a chain without elements. -/
  | start (writer : Nat) (expectedLength : UInt64)
  /-- Starts the chain of some data, held by a passphrase. -/
  | create (writer : Nat) (data : List UInt8) (passphrase : String)
  /-- Hands the chain over to a key. -/
  | handOver (writer : Nat) (key : Key)
  /-- Submits one of the reported changes. -/
  | submit (index : Nat)
  deriving DecidableEq, Repr, Inhabited

/-- The same writers, one of them on another chain. -/
def work (w : Writers) (writer : Nat) (chain : Chain) : Writers :=
  { w with chains := Function.update w.chains writer (some chain) }

/-- What an action on a token brings about, whether it is accepted or refused. -/
def step (token : Token) (w : Writers) : Action → Writers
  | .load writer =>
    match w.store.loadChain token with
    | .error _ => w
    | .ok chain => w.work writer chain
  | .start writer expectedLength => w.work writer (.empty token expectedLength)
  | .create writer data passphrase =>
    if Token.ofData data = token then w.work writer (.create data passphrase) else w
  | .handOver writer key =>
    match w.chains writer with
    | none => w
    | some chain =>
      let handed := (Chain.InPlace.handOver key).run chain
      match handed.1.result with
      | .error _ => w.work writer handed.2
      | .ok change => { w.work writer handed.2 with made := w.made ++ [(change, key)] }
  | .submit index =>
    match w.made[index]? with
    | none => w
    | some (change, key) =>
      let answered := w.store.respond (.applyChange token change key)
      match answered.1.result with
      | .error _ => { w with store := answered.2 }
      | .ok _ => { w with store := answered.2, accepted := w.accepted ++ [key] }

/-- What actions bring about, one after another. -/
def run (token : Token) (w : Writers) (actions : List Action) : Writers :=
  actions.foldl (step token) w

/-! ## What every action keeps -/

/-- A private chain of the token that starts at the first position. -/
def Private (token : Token) (c : Chain) : Prop :=
  c.token = token ∧ ∃ n, c.newestFirst.map Element.id = Position.countdown n

/-- A change as it is reported on private chains. -/
def Reported (token : Token) (change : Change) (key : Key) : Prop :=
  ∃ n, n < UInt64.size ∧ change = .nth token n key

/-- The rows are the history of the accepted keys, and nobody works on anything
but private chains. -/
structure Sound (token : Token) (w : Writers) : Prop where
  rows : w.store.loadRows token = .ok (History.rows token w.accepted)
  chains : ∀ writer c, w.chains writer = some c → Private token c
  made : ∀ change key, (change, key) ∈ w.made → Reported token change key

variable {token : Token} {w : Writers}

theorem private_of_loadChain {c : Chain} {keys : List Key}
    (history : w.store.loadRows token = .ok (History.rows token keys))
    (loaded : w.store.loadChain token = .ok c) : Private token c := by
  obtain ⟨d, loaded', htoken, elements, _⟩ := Ledger.exists_loadChain_of_history history
  have same : c = d := Except.ok.inj (loaded.symm.trans loaded')
  subst same
  refine ⟨htoken, keys.length, ?_⟩
  rw [elements, History.map_id_reverse_rows]

/-- A transfer keeps a chain private, and the change it reports is determined by its
position and key. -/
theorem private_of_handOver {c c' : Chain} {key : Key} {change : Change}
    (own : Private token c) (accepted : c.handOver key = .ok (c', change)) :
    Private token c' ∧ Reported token change key := by
  obtain ⟨rfl, n, ids⟩ := own
  obtain ⟨room, htoken, elements, rfl⟩ := Chain.handOver_of_countdown ids accepted
  refine ⟨⟨htoken, n + 1, ?_⟩, n, room, rfl⟩
  rw [elements, Chain.map_id_extended, ids]
  rfl

theorem private_empty (token : Token) (expectedLength : UInt64) :
    Private token (.empty token expectedLength) :=
  ⟨rfl, 0, rfl⟩

theorem private_create (data : List UInt8) (passphrase : String) :
    Private (.ofData data) (.create data passphrase) :=
  ⟨rfl, 1, rfl⟩

theorem sound_work {writer : Nat} {chain : Chain} (sound : Sound token w)
    (own : Private token chain) : Sound token (w.work writer chain) where
  rows := sound.rows
  chains := by
    intro other c found
    simp only [work, Function.update_apply] at found
    split at found
    · obtain rfl := Option.some.inj found
      exact own
    · exact sound.chains other c found
  made := sound.made

/-! ## What the store makes of a submission -/

/-- A submission is accepted exactly at the position that comes next, and then adds
the row of its key to the history. -/
theorem applyChange_of_reported {change : Change} {key : Key} {keys : List Key} {s : Store}
    (history : s.loadRows token = .ok (History.rows token keys))
    (reported : Reported token change key) :
    (change.id.toNat = keys.length ∧ ∃ s', (s.applyChange token change key).result = .ok s' ∧
        s'.loadRows token = .ok (History.rows token (keys ++ [key]))) ∨
      (change.id.toNat ≠ keys.length ∧
        (s.applyChange token change key).result = .error (.conflict token change.id)) := by
  obtain ⟨n, fits, rfl⟩ := reported
  rw [Change.id_nth, UInt64.toNat_ofNat_of_lt' fits]
  by_cases next : n = keys.length
  · subst next
    obtain ⟨t', applied, rows⟩ := Ledger.applyChange_of_history fits history
    refine .inl ⟨rfl, s.set token { s.ledger token with table := some t' }, ?_, ?_⟩
    · rw [Store.applyChange_of_ok applied]
    · unfold Store.loadRows
      rw [Store.ledger_set, if_pos rfl]
      exact Ledger.loadRows_eq_ok_iff.mpr ⟨t', rfl, rows⟩
  · refine .inr ⟨next, ?_⟩
    rw [Store.applyChange_of_error (Ledger.applyChange_of_history_of_ne fits next history)]

/-- **Every action keeps the rows a history of the accepted keys.** -/
theorem sound_step (sound : Sound token w) (action : Action) :
    Sound token (step token w action) := by
  cases action with
  | load writer =>
    simp only [step]
    cases loaded : w.store.loadChain token with
    | error error => exact sound
    | ok chain => exact sound_work sound (private_of_loadChain sound.rows loaded)
  | start writer expectedLength => exact sound_work sound (private_empty token expectedLength)
  | create writer data passphrase =>
    simp only [step]
    split
    case isTrue same => exact sound_work sound (same ▸ private_create data passphrase)
    case isFalse => exact sound
  | handOver writer key =>
    simp only [step]
    cases found : w.chains writer with
    | none => exact sound
    | some c =>
      have own := sound.chains writer c found
      cases answer : c.handOver key with
      | error e =>
        obtain ⟨refused, left⟩ := Chain.run_handOver_of_error answer
        simp only [refused, left]
        exact sound_work sound own
      | ok outcome =>
        obtain ⟨c', change⟩ := outcome
        obtain ⟨accepted, left⟩ := Chain.run_handOver_of_ok answer
        obtain ⟨own', reported⟩ := private_of_handOver own answer
        simp only [accepted, left]
        refine ⟨sound.rows, (sound_work sound own').chains, ?_⟩
        intro change' key' member
        rcases List.mem_append.mp member with member | member
        · exact sound.made change' key' member
        · obtain ⟨rfl, rfl⟩ := Prod.mk.inj (List.mem_singleton.mp member)
          exact reported
  | submit index =>
    simp only [step]
    cases found : w.made[index]? with
    | none => exact sound
    | some submission =>
      obtain ⟨change, key⟩ := submission
      have reported := sound.made change key (List.mem_of_getElem? found)
      rcases applyChange_of_reported sound.rows reported with ⟨_, s', applied, rows⟩ | ⟨_, refused⟩
      · obtain ⟨answer, after⟩ := Store.respond_applyChange_of_ok applied
        simp only [answer, after]
        exact ⟨rows, sound.chains, sound.made⟩
      · obtain ⟨answer, after⟩ := Store.respond_applyChange_of_error refused
        simp only [answer, after]
        exact sound

theorem sound_run (sound : Sound token w) (actions : List Action) :
    Sound token (run token w actions) := by
  induction actions generalizing w with
  | nil => exact sound
  | cons action actions ih => exact ih (sound_step sound action)

/-- Accepted keys are never taken back. -/
theorem accepted_step (token : Token) (w : Writers) (action : Action) :
    w.accepted <+: (step token w action).accepted := by
  cases action with
  | load writer =>
    simp only [step]
    split <;> exact List.prefix_rfl
  | start writer expectedLength => exact List.prefix_rfl
  | create writer data passphrase =>
    simp only [step]
    split <;> exact List.prefix_rfl
  | handOver writer key =>
    simp only [step]
    split
    · exact List.prefix_rfl
    · split <;> exact List.prefix_rfl
  | submit index =>
    simp only [step]
    split
    · exact List.prefix_rfl
    · split
      · exact List.prefix_rfl
      · exact List.prefix_append _ _

theorem accepted_run (token : Token) (w : Writers) (actions : List Action) :
    w.accepted <+: (run token w actions).accepted := by
  induction actions generalizing w with
  | nil => exact List.prefix_rfl
  | cons action actions ih => exact (accepted_step token w action).trans (ih _)

theorem sound_of_registered {s : Store} (registered : s.loadRows token = .ok []) :
    Sound token { store := s } where
  rows := registered
  chains := fun _ _ found => by cases found
  made := fun _ _ member => by cases member

/-- **Writers do not damage each other's work.**  A token starts without rows, and
any number of writers hand private chains over and submit what they like, in any
order.  At every moment the rows are the history of the accepted keys: they load,
every link holds, and their ids count from zero.  A submission for the next position
adds the row of its key, any other is refused as a conflict; and whatever happens
later, no row is lost, and none loses its id, its key, or a generator or owner that
was written. -/
theorem rows_of_run {s : Store} (registered : s.loadRows token = .ok [])
    (actions : List Action) :
    let w := run token { store := s } actions
    let rows := History.rows token w.accepted
    w.store.loadRows token = .ok rows ∧
      (∃ c, w.store.loadChain token = .ok c ∧ c.elements = rows ∧ c.brokenLink? = none) ∧
      rows.map (fun row => row.id.toNat) = List.range w.accepted.length ∧
      (∀ change key, (change, key) ∈ w.made →
        (change.id.toNat = w.accepted.length ∧
          ∃ s', (w.store.applyChange token change key).result = .ok s' ∧
            s'.loadRows token = .ok (History.rows token (w.accepted ++ [key]))) ∨
        (change.id.toNat ≠ w.accepted.length ∧
          (w.store.applyChange token change key).result = .error (.conflict token change.id))) ∧
      ∀ later, ∃ rows', (run token w later).store.loadRows token = .ok rows' ∧
        ∀ (i : Nat) (before : Element), rows[i]? = some before →
          ∃ after, rows'[i]? = some after ∧ before.Kept after := by
  intro w rows
  have sound : Sound token w := sound_run (sound_of_registered registered) actions
  refine ⟨sound.rows, ?_, ?_, ?_, ?_⟩
  · obtain ⟨c, loaded, _, elements, intact⟩ := Ledger.exists_loadChain_of_history sound.rows
    refine ⟨c, loaded, ?_, intact⟩
    rw [Chain.elements, elements, List.reverse_reverse]
  · exact History.map_toNat_id_rows token (Ledger.length_le_of_history sound.rows)
  · intro change key member
    exact applyChange_of_reported sound.rows (sound.made change key member)
  · intro later
    refine ⟨_, (sound_run sound later).rows, fun i before there => ?_⟩
    obtain ⟨more, grown⟩ := accepted_run token w later
    rw [← grown]
    exact History.kept_of_append there

/-- Two writers who never look at the store: the second one loses the race for the
first position, and is accepted at the next one all the same. -/
def race : List Action :=
  [.start 0 0, .handOver 0 ⟨"A"⟩, .start 1 0, .handOver 1 ⟨"B"⟩, .handOver 1 ⟨"C"⟩,
    .submit 0, .submit 1, .submit 2]

theorem rows_of_run_race :
    let s := ({} : Store).set ⟨"T"⟩
      { record := some ⟨⟨"T"⟩, "deed", []⟩, table := some .empty }
    s.loadRows ⟨"T"⟩ = .ok [] ∧
      (run ⟨"T"⟩ { store := s } race).store.loadRows ⟨"T"⟩ =
        .ok (History.rows ⟨"T"⟩ [⟨"A"⟩, ⟨"C"⟩]) := by
  intro s
  have registered : s.loadRows ⟨"T"⟩ = .ok [] := by rfl
  have accepted : (run ⟨"T"⟩ { store := s } race).accepted = [⟨"A"⟩, ⟨"C"⟩] := by rfl
  exact ⟨registered, accepted ▸ (rows_of_run registered race).1⟩

end Writers

end Provenance
