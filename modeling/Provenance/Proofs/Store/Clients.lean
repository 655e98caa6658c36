import Mathlib.Data.List.Nodup
import Provenance.Proofs.Store.Writers
set_option autoImplicit false

/-!
# Clients: transfers of one token, none of them lost

Any number of clients go round the same cycle on one token.  A client loads the
chain, hands the loaded chain over to a key, and at some later time submits the
change to the store; then it may submit the same change again, or load once more.
What the clients do is interleaved in any way.

The store compares nothing but a position with the number of its rows.  That this
protects every transfer is `submission_of_run`: in any reachable state the rows are
the history of the accepted keys, and a loaded chain is what that history was at the
time, so its length tells whether anything was accepted since.
-/

namespace Provenance

/-- What a client has in hand. -/
inductive Clients.Work where
  | nothing
  /-- A chain that was loaded. -/
  | loaded (chain : Chain)
  /-- A loaded chain after it was handed over to a key, and the reported change. -/
  | drafted (chain : Chain) (change : Change) (key : Key)

/-- The clients of one token and the store they share. -/
structure Clients where
  store : Store
  work : Nat → Clients.Work := fun _ => .nothing
  /-- The submissions that the store has accepted, in their order. -/
  accepted : List (Change × Key) := []

namespace Clients

/-- Something that a client does. -/
inductive Action where
  /-- Loads the chain from the store, and drops what it had in hand. -/
  | load (client : Nat)
  /-- Hands the loaded chain over to a key. -/
  | handOver (client : Nat) (key : Key)
  /-- Submits the change of the chain that was handed over. -/
  | submit (client : Nat)
  deriving DecidableEq, Repr, Inhabited

/-- The same clients, one of them with other work in hand. -/
def take (c : Clients) (client : Nat) (work : Work) : Clients :=
  { c with work := Function.update c.work client work }

/-- A change put to the store. -/
def submit (token : Token) (c : Clients) (change : Change) (key : Key) : Clients :=
  let answered := c.store.respond (.applyChange token change key)
  { c with
    store := answered.2
    accepted := c.accepted ++ match answered.1.result with
      | .error _ => []
      | .ok _ => [(change, key)] }

/-- What an action on a token brings about.  A client that has nothing in hand for
it does nothing. -/
def step (token : Token) (c : Clients) : Action → Clients
  | .load client =>
    match c.store.loadChain token with
    | .error _ => c
    | .ok chain => c.take client (.loaded chain)
  | .handOver client key =>
    match c.work client with
    | .loaded chain =>
      let handed := (Chain.InPlace.handOver key).run chain
      match handed.1.result with
      | .error _ => c.take client (.loaded handed.2)
      | .ok change => c.take client (.drafted handed.2 change key)
    | _ => c
  | .submit client =>
    match c.work client with
    | .drafted _ change key => c.submit token change key
    | _ => c

/-- What actions bring about, one after another. -/
def run (token : Token) (c : Clients) (actions : List Action) : Clients :=
  actions.foldl (step token) c

theorem run_append (token : Token) (c : Clients) (first second : List Action) :
    run token c (first ++ second) = run token (run token c first) second :=
  List.foldl_append

/-! ## What a client has in hand between two loads -/

/-- Work that was begun with a chain. -/
inductive Work.Begun (base : Chain) : Work → Prop
  | loaded : Begun base (.loaded base)
  | drafted {chain : Chain} {change : Change} {key : Key}
      (accepted : base.handOver key = .ok (chain, change)) :
      Begun base (.drafted chain change key)

variable {token : Token} {c : Clients} {client : Nat}

theorem work_take (c : Clients) (client other : Nat) (work : Work) :
    (c.take client work).work other = if other = client then work else c.work other :=
  Function.update_apply ..

/-- A refused transfer leaves the client with the chain that it had loaded. -/
theorem step_handOver_of_error {base : Chain} {key : Key} {e : ChainError}
    (inHand : c.work client = .loaded base) (refused : base.handOver key = .error e) :
    step token c (.handOver client key) = c := by
  obtain ⟨answer, left⟩ := Chain.run_handOver_of_error refused
  simp only [step, inHand, answer, left]
  rw [take, ← inHand, Function.update_eq_self]

theorem step_handOver_of_ok {base chain : Chain} {key : Key} {change : Change}
    (inHand : c.work client = .loaded base) (accepted : base.handOver key = .ok (chain, change)) :
    step token c (.handOver client key) = c.take client (.drafted chain change key) := by
  obtain ⟨answer, left⟩ := Chain.run_handOver_of_ok accepted
  simp only [step, inHand, answer, left]

/-- A client that has loaded nothing has nothing to hand over. -/
theorem step_handOver_of_other {key : Key} (other : ∀ base, c.work client ≠ .loaded base) :
    step token c (.handOver client key) = c := by
  cases inHand : c.work client with
  | loaded base => exact absurd inHand (other base)
  | _ => simp only [step, inHand]

/-- Unless a client loads, it keeps what it has in hand, or hands it over. -/
theorem work_step (token : Token) (c : Clients) {client : Nat} {action : Action}
    (other : action ≠ .load client) :
    (step token c action).work client = c.work client ∨
      ∃ base, c.work client = .loaded base ∧
        ∃ chain change key, base.handOver key = .ok (chain, change) ∧
          (step token c action).work client = .drafted chain change key := by
  cases action with
  | load loading =>
    have differs : client ≠ loading := fun same => other (same ▸ rfl)
    simp only [step]
    split
    · exact .inl rfl
    · rw [work_take, if_neg differs]
      exact .inl rfl
  | handOver drafting key =>
    cases inHand : c.work drafting with
    | loaded base =>
      cases answer : base.handOver key with
      | error e => exact .inl (by rw [step_handOver_of_error inHand answer])
      | ok outcome =>
        rw [step_handOver_of_ok inHand answer, work_take]
        split
        case isTrue same =>
          exact .inr ⟨base, same ▸ inHand, outcome.1, outcome.2, key, answer, rfl⟩
        case isFalse => exact .inl rfl
    | _ => exact .inl (by rw [step_handOver_of_other (by simp [inHand])])
  | submit submitting =>
    simp only [step]
    split <;> exact .inl rfl

/-- What is true of a client's work, and stays true when a loaded chain is handed over,
is true until the client loads again. -/
theorem work_run {P : Work → Prop} (token : Token) {c : Clients} {client : Nat}
    (keeps : ∀ base chain change key, P (.loaded base) → base.handOver key = .ok (chain, change) →
      P (.drafted chain change key))
    {actions : List Action} (unloaded : .load client ∉ actions) (holds : P (c.work client)) :
    P ((run token c actions).work client) := by
  induction actions generalizing c with
  | nil => exact holds
  | cons action actions ih =>
    rw [List.mem_cons, not_or] at unloaded
    obtain ⟨other, unloaded⟩ := unloaded
    refine ih unloaded ?_
    rcases work_step token c (Ne.symm other) with
      same | ⟨base, inHand, chain, change, key, accepted, drafted⟩
    · rw [same]
      exact holds
    · rw [drafted]
      exact keeps base chain change key (inHand ▸ holds) accepted

theorem nothing_run {actions : List Action} (unloaded : .load client ∉ actions)
    (idle : c.work client = .nothing) : (run token c actions).work client = .nothing := by
  refine work_run (P := (· = .nothing)) token ?_ unloaded idle
  intro base chain change key impossible
  cases impossible

/-- Until a client loads again, it works on the chain that it has begun with. -/
theorem begun_run {base : Chain} {actions : List Action} (unloaded : .load client ∉ actions)
    (begun : (c.work client).Begun base) : ((run token c actions).work client).Begun base := by
  refine work_run (P := (·.Begun base)) token ?_ unloaded begun
  intro base' chain change key begun accepted
  cases begun
  exact .drafted accepted

/-! ## What every action keeps -/

/-- The keys that were accepted, in their order. -/
def keys (c : Clients) : List Key :=
  c.accepted.map Prod.snd

/-- The chain of a token whose rows are the history of some keys. -/
structure Snapshot (token : Token) (keys : List Key) (base : Chain) : Prop where
  token_eq : base.token = token
  newestFirst_eq : base.newestFirst = (History.rows token keys).reverse

/-- The rows are the history of the accepted keys, the accepted changes are those of
the positions from the first one on, and every client works on a history that was
loaded at some time. -/
structure Sound (token : Token) (c : Clients) : Prop where
  rows : c.store.loadRows token = .ok (History.rows token c.keys)
  ids : c.accepted.map (fun submission => submission.1.id.toNat) =
    List.range c.accepted.length
  work : ∀ client, c.work client = .nothing ∨
    ∃ keys base, Snapshot token keys base ∧ (c.work client).Begun base

/-- A transfer of a history is determined by the position that comes next and the key. -/
theorem handOver_of_snapshot {base chain : Chain} {keys : List Key} {key : Key}
    {change : Change} (snapshot : Snapshot token keys base)
    (accepted : base.handOver key = .ok (chain, change)) :
    keys.length < UInt64.size ∧ change = .nth token keys.length key ∧
      chain.elements = History.rows token (keys ++ [key]) := by
  obtain ⟨rfl, elements⟩ := snapshot
  have ids : base.newestFirst.map Element.id = Position.countdown keys.length := by
    rw [elements, History.map_id_reverse_rows]
  obtain ⟨room, _, grown, change⟩ := Chain.handOver_of_countdown ids accepted
  refine ⟨room, change, ?_⟩
  rw [Chain.elements, grown, elements, ← History.reverse_rows_concat, List.reverse_reverse]

/-- A change made on a history is accepted by a history of the same length, and
refused by every other one. -/
theorem respond_of_snapshot {s : Store} {base chain : Chain} {keys now : List Key} {key : Key}
    {change : Change} (history : s.loadRows token = .ok (History.rows token now))
    (snapshot : Snapshot token keys base)
    (accepted : base.handOver key = .ok (chain, change)) :
    let answered := s.respond (.applyChange token change key)
    (keys.length = now.length ∧ change.id.toNat = now.length ∧
        answered.1.result = .ok .done ∧
        answered.2.loadRows token = .ok (History.rows token (now ++ [key]))) ∨
      (keys.length ≠ now.length ∧ answered.1.result = .error (.conflict token change.id) ∧
        answered.2 = s) := by
  intro answered
  obtain ⟨room, rfl, _⟩ := handOver_of_snapshot snapshot accepted
  have position : (Change.nth token keys.length key).id.toNat = keys.length := by
    rw [Change.id_nth, UInt64.toNat_ofNat_of_lt' room]
  rcases Writers.applyChange_of_reported history ⟨_, room, rfl⟩ with
    ⟨next, s', applied, rows⟩ | ⟨stale, refused⟩
  · obtain ⟨answer, after⟩ := Store.respond_applyChange_of_ok applied
    exact .inl ⟨position.symm.trans next, next, answer, after ▸ rows⟩
  · obtain ⟨answer, after⟩ := Store.respond_applyChange_of_error refused
    exact .inr ⟨position ▸ stale, answer, after⟩

/-- A load takes the history of the keys that are accepted so far. -/
theorem step_load (sound : Sound token c) (client : Nat) :
    ∃ base, Snapshot token c.keys base ∧
      step token c (.load client) = c.take client (.loaded base) := by
  obtain ⟨base, loaded, htoken, elements, _⟩ :=
    Ledger.exists_loadChain_of_history (l := c.store.ledger token) sound.rows
  refine ⟨base, ⟨htoken, elements⟩, ?_⟩
  have loaded : c.store.loadChain token = .ok base := loaded
  simp only [step, loaded]

theorem sound_take {work : Work} (sound : Sound token c)
    (begun : ∃ keys base, Snapshot token keys base ∧ work.Begun base) :
    Sound token (c.take client work) where
  rows := sound.rows
  ids := sound.ids
  work := by
    intro other
    rw [work_take]
    split
    · exact .inr begun
    · exact sound.work other

theorem sound_submit {base chain : Chain} {change : Change} {key : Key} {keys : List Key}
    (sound : Sound token c) (snapshot : Snapshot token keys base)
    (accepted : base.handOver key = .ok (chain, change)) :
    Sound token (c.submit token change key) := by
  rcases respond_of_snapshot sound.rows snapshot accepted with
    ⟨_, next, answer, rows⟩ | ⟨_, answer, after⟩
  · refine ⟨?_, ?_, sound.work⟩
    · simp only [submit, Clients.keys, answer, List.map_append, List.map_cons, List.map_nil]
      exact rows
    · rw [Clients.keys, List.length_map] at next
      simp only [submit, answer, List.map_append, List.map_cons, List.map_nil, sound.ids,
        List.length_append, List.length_singleton, List.range_succ, next]
  · have same : c.submit token change key = c := by
      simp only [submit, answer, after, List.append_nil]
    rw [same]
    exact sound

/-- A client with work in hand has begun it with a history. -/
theorem exists_begun {work : Work} (sound : Sound token c) (inHand : c.work client = work)
    (busy : work ≠ .nothing) :
    ∃ keys base, Snapshot token keys base ∧ work.Begun base := by
  rcases sound.work client with idle | begun
  · exact absurd (inHand.symm.trans idle) busy
  · exact inHand ▸ begun

/-- **Every action keeps the rows a history of the accepted keys.** -/
theorem sound_step (sound : Sound token c) (action : Action) :
    Sound token (step token c action) := by
  cases action with
  | load client =>
    obtain ⟨base, snapshot, taken⟩ := step_load sound client
    rw [taken]
    exact sound_take sound ⟨_, base, snapshot, .loaded⟩
  | handOver client key =>
    cases inHand : c.work client with
    | loaded base =>
      cases answer : base.handOver key with
      | error e =>
        rw [step_handOver_of_error inHand answer]
        exact sound
      | ok outcome =>
        obtain ⟨keys, base', snapshot, begun⟩ := exists_begun sound inHand (by simp)
        cases begun
        rw [step_handOver_of_ok inHand answer]
        exact sound_take sound ⟨keys, base, snapshot, .drafted answer⟩
    | _ =>
      rw [step_handOver_of_other (by simp [inHand])]
      exact sound
  | submit client =>
    simp only [step]
    split
    case h_2 => exact sound
    case h_1 chain change key inHand =>
      obtain ⟨keys, base, snapshot, begun⟩ := exists_begun sound inHand (by simp)
      cases begun with
      | drafted accepted => exact sound_submit sound snapshot accepted

theorem sound_run (sound : Sound token c) (actions : List Action) :
    Sound token (run token c actions) := by
  induction actions generalizing c with
  | nil => exact sound
  | cons action actions ih => exact ih (sound_step sound action)

theorem sound_of_registered {s : Store} (registered : s.loadRows token = .ok []) :
    Sound token { store := s } where
  rows := registered
  ids := rfl
  work := fun _ => .inl rfl

/-- Accepted submissions are never taken back. -/
theorem accepted_step (token : Token) (c : Clients) (action : Action) :
    c.accepted <+: (step token c action).accepted := by
  cases action with
  | load client =>
    simp only [step]
    split <;> exact List.prefix_rfl
  | handOver client key =>
    simp only [step]
    split
    · split <;> exact List.prefix_rfl
    · exact List.prefix_rfl
  | submit client =>
    simp only [step]
    split
    · exact List.prefix_append _ _
    · exact List.prefix_rfl

theorem accepted_run (token : Token) (c : Clients) (actions : List Action) :
    c.accepted <+: (run token c actions).accepted := by
  induction actions generalizing c with
  | nil => exact List.prefix_rfl
  | cons action actions ih => exact (accepted_step token c action).trans (ih _)

/-- A client with a draft in hand has loaded the chain that it was made on, and has
not loaded since. -/
theorem exists_load_of_drafted {actions : List Action} {chain : Chain} {change : Change}
    {key : Key} (sound : Sound token c) (idle : c.work client = .nothing)
    (inHand : (run token c actions).work client = .drafted chain change key) :
    ∃ past since base,
      actions = past ++ [.load client] ++ since ∧ .load client ∉ since ∧
      (run token c (past ++ [.load client])).work client = .loaded base ∧
      Snapshot token (run token c (past ++ [.load client])).keys base ∧
      base.handOver key = .ok (chain, change) := by
  by_cases loads : .load client ∈ actions
  · -- The last load is the first one from the end.
    obtain ⟨since, past, reversed, unloaded⟩ :=
      List.eq_append_cons_of_mem (List.mem_reverse.mpr loads)
    have split : actions = past.reverse ++ [.load client] ++ since.reverse := by
      rw [← List.reverse_reverse actions, reversed]
      simp
    rw [← List.mem_reverse] at unloaded
    obtain ⟨base, snapshot, taken⟩ := step_load (sound_run sound past.reverse) client
    have after : run token c (past.reverse ++ [.load client]) =
        (run token c past.reverse).take client (.loaded base) := by
      rw [run_append]
      exact taken
    have loaded : ((run token c past.reverse).take client (.loaded base)).work client =
        .loaded base := by
      rw [work_take, if_pos rfl]
    rw [split, run_append, after] at inHand
    have begun : (((run token c past.reverse).take client (.loaded base)).work client).Begun
        base := by
      rw [loaded]
      exact .loaded
    have drafted : (Work.drafted chain change key).Begun base :=
      inHand ▸ begun_run unloaded begun
    refine ⟨past.reverse, since.reverse, base, split, unloaded, ?_, ?_, ?_⟩
    · rw [after, loaded]
    · rw [after]
      exact snapshot
    · cases drafted with
      | drafted accepted => exact accepted
  · rw [nothing_run loads idle] at inHand
    cases inHand

/-- A draft is accepted exactly if nothing was accepted since the history that it was
made on. -/
theorem respond_of_drafted {earlier now : Clients} {base chain : Chain} {change : Change}
    {key : Key} (sound : Sound token now) (grown : earlier.accepted <+: now.accepted)
    (snapshot : Snapshot token earlier.keys base)
    (accepted : base.handOver key = .ok (chain, change)) :
    let answered := now.store.respond (.applyChange token change key)
    (answered.1.result = .ok .done ↔ now.accepted = earlier.accepted) ∧
      (answered.1.result = .ok .done → answered.2.loadRows token = .ok chain.elements) ∧
      (answered.1.result ≠ .ok .done →
        answered.1.result = .error (.conflict token change.id) ∧ answered.2 = now.store) := by
  intro answered
  obtain ⟨_, _, elements⟩ := handOver_of_snapshot snapshot accepted
  rcases respond_of_snapshot sound.rows snapshot accepted with
    ⟨next, _, answer, rows⟩ | ⟨stale, answer, after⟩
  · rw [keys, keys, List.length_map, List.length_map] at next
    have same : now.accepted = earlier.accepted := (grown.eq_of_length next).symm
    refine ⟨⟨fun _ => same, fun _ => answer⟩, fun _ => ?_, fun refused => absurd answer refused⟩
    rw [rows, elements, keys, keys, same]
  · have refused : answered.1.result ≠ .ok .done := by
      rw [answer]
      exact fun impossible => by cases impossible
    refine ⟨⟨fun done => absurd done refused, fun same => ?_⟩, fun done => absurd done refused,
      fun _ => ⟨answer, after⟩⟩
    exact absurd (by rw [keys, keys, same]) stale

/-- **No transfer is lost.**  A token starts without rows, and any number of clients
load its chain, hand it over and submit what they made of it, in any order.  Whatever
the state that they have reached, a submission is accepted exactly if no other one
was accepted since the client has loaded.  Then the rows are those of the chain that
the client has in hand; otherwise it is refused as a conflict at the position of its
change, and the store is as it was.  No position is ever given away twice. -/
theorem submission_of_run {s : Store} (registered : s.loadRows token = .ok [])
    (actions : List Action) :
    let now := run token { store := s } actions
    (∀ client chain change key, now.work client = .drafted chain change key →
      ∃ past since base,
        actions = past ++ [.load client] ++ since ∧ .load client ∉ since ∧
        let loaded := run token { store := s } (past ++ [.load client])
        let answered := now.store.respond (.applyChange token change key)
        loaded.work client = .loaded base ∧ base.handOver key = .ok (chain, change) ∧
        (answered.1.result = .ok .done ↔ now.accepted = loaded.accepted) ∧
        (answered.1.result = .ok .done → answered.2.loadRows token = .ok chain.elements) ∧
        (answered.1.result ≠ .ok .done →
          answered.1.result = .error (.conflict token change.id) ∧ answered.2 = now.store)) ∧
      (now.accepted.map fun submission => submission.1.id).Nodup := by
  intro now
  have initial : Sound token { store := s } := sound_of_registered registered
  have sound : Sound token now := sound_run initial actions
  refine ⟨?_, ?_⟩
  · intro client chain change key inHand
    obtain ⟨past, since, base, split, unloaded, loaded, snapshot, accepted⟩ :=
      exists_load_of_drafted initial rfl inHand
    have grown := accepted_run token (run token { store := s } (past ++ [.load client])) since
    rw [← run_append, ← split] at grown
    exact ⟨past, since, base, split, unloaded, loaded, accepted,
      respond_of_drafted sound grown snapshot accepted⟩
  · have counted : (now.accepted.map fun submission => submission.1.id).map UInt64.toNat =
        List.range now.accepted.length := by
      rw [List.map_map]
      exact sound.ids
    exact List.Nodup.of_map _ (counted ▸ List.nodup_range)

/-- Two clients that have loaded the same chain: the second one is faster. -/
def overtaking : List Action :=
  [.load 0, .load 1, .handOver 0 ⟨"A"⟩, .handOver 1 ⟨"B"⟩, .submit 1]

/-- The slower one is refused. -/
theorem submission_of_run_overtaking :
    let s := ({} : Store).set ⟨"T"⟩
      { record := some ⟨⟨"T"⟩, "deed", []⟩, table := some .empty }
    let now := run ⟨"T"⟩ { store := s } overtaking
    s.loadRows ⟨"T"⟩ = .ok [] ∧
      ∃ chain change, now.work 0 = .drafted chain change ⟨"A"⟩ ∧
        (now.store.respond (.applyChange ⟨"T"⟩ change ⟨"A"⟩)).1.result =
          .error (.conflict ⟨"T"⟩ change.id) ∧
        (now.store.respond (.applyChange ⟨"T"⟩ change ⟨"A"⟩)).2 = now.store := by
  intro s now
  have registered : s.loadRows ⟨"T"⟩ = .ok [] := by rfl
  have accepted : now.accepted.map Prod.snd = [⟨"B"⟩] := by rfl
  obtain ⟨chain, change, inHand⟩ :
      ∃ chain change, now.work 0 = .drafted chain change ⟨"A"⟩ := ⟨_, _, rfl⟩
  obtain ⟨past, since, _, split, unloaded, _, _, accepts, _, refuses⟩ :=
    (submission_of_run registered overtaking).1 0 chain change ⟨"A"⟩ inHand
  have first : past = [] := by
    cases past with
    | nil => rfl
    | cons _ past =>
      have later : Action.load 0 ∈ overtaking.tail := by
        rw [split]
        simp
      exact absurd later (by decide)
  subst first
  refine ⟨registered, chain, change, inHand, refuses fun done => ?_⟩
  rw [accepts.mp done] at accepted
  cases accepted

end Clients

end Provenance
