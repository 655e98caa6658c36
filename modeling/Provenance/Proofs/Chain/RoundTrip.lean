import Mathlib.Data.List.Chain
import Provenance.Proofs.Chain.Growth
set_option autoImplicit false

/-!
# Round trips between rows and chains

Rows are taken in one after another, until one of them does not come right after the
one before (`Element.Precedes`).  So the rows that form a chain are those without a gap,
and of any others it is the first gap (`FirstGap`) that is reported.

What is read back from rows is the chain that the rows came from, up to the length that
it was said to have.  No call looks at that, so nobody can tell the two chains apart
(`Chain.Alike`).  `ofElements_inverse` puts the two directions together.
-/

namespace Provenance

/-! ## Rows without a gap -/

/-- An element comes right before another one. -/
def Element.Precedes (earlier later : Element) : Prop :=
  later.id.toNat = earlier.id.toNat + 1

instance (earlier later : Element) : Decidable (earlier.Precedes later) :=
  inferInstanceAs (Decidable (_ = _))

theorem contiguous_iff_isChain {ids : List Position} :
    Contiguous ids ↔ ids.IsChain fun later earlier => earlier.next? = some later := by
  induction ids with
  | nil => simp [Contiguous]
  | cons later older ih =>
    cases older with
    | nil => simp [Contiguous]
    | cons earlier older => rw [Contiguous, ih, List.isChain_cons_cons]

/-- Ids follow one another if each element comes right before the next one. -/
theorem contiguous_reverse_iff {rows : List Element} :
    Contiguous (rows.reverse.map Element.id) ↔ rows.IsChain Element.Precedes := by
  rw [contiguous_iff_isChain, List.isChain_map, List.isChain_reverse]
  simp only [Position.next?_eq_some_iff]
  rfl

/-- The first two neighbours of which one does not come right before the other. -/
def FirstGap (rows : List Element) (earlier later : Element) : Prop :=
  ∃ before after, rows = before ++ earlier :: later :: after ∧
    (before ++ [earlier]).IsChain Element.Precedes ∧ ¬earlier.Precedes later

theorem FirstGap.not_isChain {rows : List Element} {earlier later : Element}
    (gap : FirstGap rows earlier later) : ¬rows.IsChain Element.Precedes := by
  obtain ⟨before, after, rfl, _, apart⟩ := gap
  exact fun chain => apart (List.isChain_append_cons_cons.mp chain).2.1

namespace Chain

variable {c d c' : Chain} {token : Token} {rows : List Element} {row : Element}
  {e : ChainError}

/-! ## Taking rows in -/

/-- Rows form a chain exactly if there is no gap between them. -/
theorem exists_ofElements_iff :
    (∃ c, ofElements token rows = .ok c) ↔ rows.IsChain Element.Precedes := by
  rw [← contiguous_reverse_iff]
  constructor
  · rintro ⟨c, built⟩
    rw [← (ofElements_eq_ok_iff.mp built).2.1]
    exact c.contiguous
  · intro contiguous
    obtain ⟨c, built, _⟩ := exists_ofElements_of_contiguous token contiguous
    exact ⟨c, built⟩

/-- A row is refused by the chain of the rows before it. -/
theorem foldlM_push_eq_error_iff :
    rows.foldlM (fun c row => c.push row) c = .error e ↔
      ∃ before row after c', rows = before ++ row :: after ∧
        before.foldlM (fun c row => c.push row) c = .ok c' ∧ c'.push row = .error e := by
  induction rows generalizing c with
  | nil => simp [pure, Except.pure]
  | cons first rows ih =>
    rw [List.foldlM_cons]
    constructor
    · intro refused
      cases pushed : c.push first with
      | error e' =>
        rw [pushed] at refused
        obtain rfl := Except.error.inj refused
        exact ⟨[], first, rows, c, rfl, rfl, pushed⟩
      | ok mid =>
        rw [pushed] at refused
        obtain ⟨before, row, after, c', rfl, folded, last⟩ := ih.mp refused
        refine ⟨first :: before, row, after, c', rfl, ?_, last⟩
        rw [List.foldlM_cons, pushed]
        exact folded
    · rintro ⟨before, row, after, c', split, folded, last⟩
      cases before with
      | nil =>
        obtain ⟨rfl, rfl⟩ := List.cons.inj split
        obtain rfl := Except.ok.inj folded
        rw [last]
        rfl
      | cons first' before =>
        obtain ⟨rfl, rfl⟩ := List.cons.inj split
        rw [List.foldlM_cons] at folded
        cases pushed : c.push first with
        | error e' =>
          rw [pushed] at folded
          cases folded
        | ok mid =>
          rw [pushed] at folded
          exact ih.mpr ⟨before, row, after, c', rfl, folded, last⟩

/-- A row is refused if it does not come right after the last one. -/
theorem push_eq_error_iff_not_precedes :
    c.push row = .error e ↔
      ∃ last, c.last? = some last ∧ ¬last.Precedes row ∧
        (last.id = .greatest ∧ e = .positionsExhausted ∨
          ∃ expected : Position, expected.toNat = last.id.toNat + 1 ∧
            e = .outOfOrder expected row.id) := by
  simp only [push_eq_error_iff, Element.Precedes, ← Position.next?_eq_some_iff]
  refine exists_congr fun last => and_congr_right fun _ => ?_
  constructor
  · rintro (⟨greatest, rfl⟩ | ⟨expected, next, differs, rfl⟩)
    · rw [Position.next?_eq_none_iff.mpr greatest]
      exact ⟨Option.some_ne_none _ ∘ Eq.symm, .inl ⟨greatest, rfl⟩⟩
    · rw [next]
      exact ⟨fun same => differs (Option.some.inj same).symm, .inr ⟨expected, rfl, rfl⟩⟩
  · rintro ⟨apart, ⟨greatest, rfl⟩ | ⟨expected, next, rfl⟩⟩
    · exact .inl ⟨greatest, rfl⟩
    · refine .inr ⟨expected, next, fun same => apart ?_, rfl⟩
      rw [next, same]

/-- **The first gap is what is reported.**  Where it comes after the greatest position
there is nothing to be expected there, elsewhere the position that is left out is. -/
theorem ofElements_eq_error_iff :
    ofElements token rows = .error e ↔
      ∃ earlier later, FirstGap rows earlier later ∧
        (earlier.id = .greatest ∧ e = .positionsExhausted ∨
          ∃ expected : Position, expected.toNat = earlier.id.toNat + 1 ∧
            e = .outOfOrder expected later.id) := by
  rw [ofElements, foldlM_push_eq_error_iff]
  constructor
  · rintro ⟨taken, later, after, c, rfl, folded, refused⟩
    obtain ⟨earlier, ends, apart, reason⟩ := push_eq_error_iff_not_precedes.mp refused
    have elements : c.newestFirst = taken.reverse := by
      simpa [empty] using (foldlM_push_eq_ok_iff.mp folded).2.1
    have contiguous := c.contiguous
    rw [elements, contiguous_reverse_iff] at contiguous
    rw [last?, elements, List.head?_reverse] at ends
    obtain ⟨before, rfl⟩ := List.getLast?_eq_some_iff.mp ends
    exact ⟨earlier, later, ⟨before, after, by simp, contiguous, apart⟩, reason⟩
  · rintro ⟨earlier, later, ⟨before, after, rfl, chain, apart⟩, reason⟩
    -- The rows before the gap are a chain; it waits for all of the rows.
    let c : Chain := ⟨token, (before ++ [earlier]).reverse,
      .ofNat (before ++ earlier :: later :: after).length, contiguous_reverse_iff.mpr chain⟩
    refine ⟨before ++ [earlier], later, after, c, by simp, ?_, ?_⟩
    · exact foldlM_push_eq_ok_iff.mpr ⟨rfl, (List.append_nil _).symm, rfl⟩
    · exact push_eq_error_iff_not_precedes.mpr ⟨earlier, by simp [c, last?], apart, reason⟩

/-- Where rows do not form a chain, there is a first gap between them. -/
theorem isChain_or_exists_firstGap (rows : List Element) :
    rows.IsChain Element.Precedes ∨ ∃ earlier later, FirstGap rows earlier later := by
  cases built : ofElements ⟨""⟩ rows with
  | ok c => exact .inl (exists_ofElements_iff.mp ⟨c, built⟩)
  | error e =>
    obtain ⟨earlier, later, gap, _⟩ := ofElements_eq_error_iff.mp built
    exact .inr ⟨earlier, later, gap⟩

/-- What was built has the given token and the given rows, and was said to become as
long as there are rows. -/
theorem rows_of_ofElements (built : ofElements token rows = .ok c) :
    c.token = token ∧ c.elements = rows ∧ c.expectedLength = .ofNat rows.length := by
  obtain ⟨htoken, elements, expectedLength⟩ := ofElements_eq_ok_iff.mp built
  exact ⟨htoken, by rw [Chain.elements, elements, List.reverse_reverse], expectedLength⟩

/-! ## Chains that cannot be told apart -/

/-- Chains with the same token and the same elements.  They differ at most in how long
they were said to become. -/
structure Alike (c d : Chain) : Prop where
  token : d.token = c.token
  newestFirst : d.newestFirst = c.newestFirst

theorem Alike.elements (alike : c.Alike d) : d.elements = c.elements :=
  congrArg List.reverse alike.newestFirst

theorem Alike.last? (alike : c.Alike d) : d.last? = c.last? :=
  congrArg List.head? alike.newestFirst

theorem Alike.brokenLink? (alike : c.Alike d) : d.brokenLink? = c.brokenLink? := by
  rw [Chain.brokenLink?, Chain.brokenLink?, alike.token, alike.newestFirst]

theorem Alike.keyAt (alike : c.Alike d) (position : Position) (passphrase : String) :
    d.keyAt position passphrase = c.keyAt position passphrase := by
  rw [Chain.keyAt, Chain.keyAt, alike.token]

theorem Alike.key (alike : c.Alike d) (passphrase : String) :
    d.key passphrase = c.key passphrase := by
  rw [Chain.key, Chain.key, lastPosition, lastPosition, alike.last?, alike.keyAt]

/-- Chains that are alike are equal if they were said to become as long as each other. -/
theorem Alike.eq_iff (alike : c.Alike d) : d = c ↔ d.expectedLength = c.expectedLength :=
  ⟨congrArg expectedLength, eq_of_newestFirst_eq alike.token alike.newestFirst⟩

theorem Alike.push (alike : c.Alike d) (row : Element) :
    (∃ e, c.push row = .error e ∧ d.push row = .error e) ∨
      ∃ c' d', c.push row = .ok c' ∧ d.push row = .ok d' ∧ c'.Alike d' := by
  cases answer : c.push row with
  | error e =>
    rw [push_eq_error_iff, ← alike.last?, ← push_eq_error_iff] at answer
    exact .inl ⟨e, rfl, answer⟩
  | ok c' =>
    obtain ⟨token, elements, _⟩ := push_eq_ok_iff.mp answer
    let d' : Chain := { c' with expectedLength := d.expectedLength }
    refine .inr ⟨c', d', rfl, push_eq_ok_iff.mpr ⟨?_, ?_, rfl⟩, rfl, rfl⟩
    · exact token.trans alike.token.symm
    · exact elements.trans (congrArg _ alike.newestFirst.symm)

theorem Alike.handOver (alike : c.Alike d) (key : Key) :
    (∃ e, c.handOver key = .error e ∧ d.handOver key = .error e) ∨
      ∃ c' d' change, c.handOver key = .ok (c', change) ∧ d.handOver key = .ok (d', change) ∧
        c'.Alike d' := by
  cases answer : c.handOver key with
  | error e =>
    rw [handOver_eq_error_iff, ← alike.last?, ← handOver_eq_error_iff] at answer
    exact .inl ⟨e, rfl, answer⟩
  | ok outcome =>
    obtain ⟨c', change⟩ := outcome
    obtain ⟨id, takes, token, elements, _, reported⟩ := handOver_eq_ok_iff.mp answer
    rw [← alike.token, ← alike.newestFirst] at *
    let d' : Chain := { c' with expectedLength := d.expectedLength }
    refine .inr ⟨c', d', change, rfl, handOver_eq_ok_iff.mpr ?_, rfl, rfl⟩
    exact ⟨id, takes, token, elements, rfl, reported⟩

/-- **Chains that are alike give the same answers**, and are alike afterwards. -/
theorem Alike.respond (alike : c.Alike d) (call : Call) :
    (d.respond call).1 = (c.respond call).1 ∧ (c.respond call).2.Alike (d.respond call).2 := by
  cases call with
  | push row =>
    rw [respond_push, respond_push]
    rcases alike.push row with ⟨e, refused, refused'⟩ | ⟨c', d', accepted, accepted', alike'⟩
    · rw [refused, refused']
      exact ⟨rfl, alike⟩
    · rw [accepted, accepted']
      exact ⟨rfl, alike'⟩
  | handOver key =>
    rw [respond_handOver, respond_handOver]
    rcases alike.handOver key with
      ⟨e, refused, refused'⟩ | ⟨c', d', change, accepted, accepted', alike'⟩
    · rw [refused, refused']
      exact ⟨rfl, alike⟩
    · rw [accepted, accepted']
      exact ⟨rfl, alike'⟩

theorem Alike.after (alike : c.Alike d) (calls : List Call) :
    (c.after calls).Alike (d.after calls) := by
  induction calls generalizing c d with
  | nil => exact alike
  | cons call calls ih => exact ih (alike.respond call).2

/-- A chain is read back from its own elements, and equal to what is read back if it was
said to become as long as it is. -/
theorem exists_alike_of_elements (c : Chain) (fits : c.length < UInt64.size) :
    ∃ d, ofElements c.token c.elements = .ok d ∧ c.Alike d ∧
      (d = c ↔ c.expectedLength.toNat = c.length) := by
  let d : Chain := { c with expectedLength := .ofNat c.elements.length }
  have alike : c.Alike d := ⟨rfl, rfl⟩
  have length : c.elements.length = c.length := List.length_reverse
  refine ⟨d, ofElements_eq_ok_iff.mpr ⟨rfl, (List.reverse_reverse _).symm, rfl⟩, alike, ?_⟩
  have stated : d.expectedLength.toNat = c.length :=
    (congrArg (fun n => (UInt64.ofNat n).toNat) length).trans (UInt64.toNat_ofNat_of_lt' fits)
  rw [alike.eq_iff, ← UInt64.toNat_inj, stated, eq_comm]

/-- **Reading rows and listing elements undo each other.**  For fewer rows than there are
words:

* they are a chain of any token exactly if each but the first one has the position right
  after that of the row before it, and then the chain has the given token and rows, and
  was said to become as long as there are rows;
* otherwise the answer is about the first gap: it is the end of all positions if the row
  before the gap has the greatest one, and else the position that comes next and the one
  that is there instead.

A chain with these rows, however it came about, is read back with the same token and the
same elements.  It is equal to what is read back exactly if it was said to become as long
as it is.  Whatever is done to both of them from there on, each call, each check of the
links and each key that is derived gives the same on both. -/
theorem ofElements_inverse (token : Token) {rows : List Element}
    (fits : rows.length < UInt64.size) :
    ((∃ c, ofElements token rows = .ok c) ↔ rows.IsChain Element.Precedes) ∧
    (∀ c, ofElements token rows = .ok c →
      c.token = token ∧ c.elements = rows ∧ c.expectedLength.toNat = rows.length) ∧
    (∀ e, ofElements token rows = .error e ↔
      ∃ earlier later, FirstGap rows earlier later ∧
        (earlier.id = .greatest ∧ e = .positionsExhausted ∨
          ∃ expected : Position, expected.toNat = earlier.id.toNat + 1 ∧
            e = .outOfOrder expected later.id)) ∧
    ∀ c : Chain, c.elements = rows →
      ∃ d, ofElements c.token c.elements = .ok d ∧
        d.token = c.token ∧ d.elements = c.elements ∧
        (d = c ↔ c.expectedLength.toNat = c.length) ∧
        ∀ calls,
          (∀ call, ((d.after calls).respond call).1 = ((c.after calls).respond call).1) ∧
          (d.after calls).elements = (c.after calls).elements ∧
          (d.after calls).brokenLink? = (c.after calls).brokenLink? ∧
          ∀ passphrase, (d.after calls).key passphrase = (c.after calls).key passphrase ∧
            ∀ position, (d.after calls).keyAt position passphrase =
              (c.after calls).keyAt position passphrase := by
  refine ⟨exists_ofElements_iff, fun c built => ?_, fun e => ofElements_eq_error_iff, ?_⟩
  · obtain ⟨htoken, elements, expectedLength⟩ := rows_of_ofElements built
    exact ⟨htoken, elements, expectedLength ▸ UInt64.toNat_ofNat_of_lt' fits⟩
  · rintro c rfl
    rw [Chain.elements, List.length_reverse] at fits
    obtain ⟨d, built, alike, equal⟩ := exists_alike_of_elements c fits
    refine ⟨d, built, alike.token, alike.elements, equal, fun calls => ?_⟩
    have later := alike.after calls
    exact ⟨fun call => (later.respond call).1, later.elements, later.brokenLink?,
      fun passphrase => ⟨later.key passphrase, fun position => later.keyAt position passphrase⟩⟩

/-- Rows up to the greatest position, and one more. -/
def overfull : List Element :=
  [.unlinked 0xFFFFFFFFFFFFFFFE ⟨"A"⟩, .unlinked .greatest ⟨"B"⟩, .unlinked 0 ⟨"C"⟩]

theorem ofElements_inverse_overfull :
    overfull.length < UInt64.size ∧
      ofElements ⟨"T"⟩ overfull = .error .positionsExhausted ∧
      ∃ c, ofElements ⟨"T"⟩ (overfull.take 2) = .ok c ∧ c.elements = overfull.take 2 := by
  have fits : overfull.length < UInt64.size := by decide
  have fits' : (overfull.take 2).length < UInt64.size := by decide
  have gap : FirstGap overfull (.unlinked .greatest ⟨"B"⟩) (.unlinked 0 ⟨"C"⟩) :=
    ⟨[.unlinked 0xFFFFFFFFFFFFFFFE ⟨"A"⟩], [], rfl,
      List.isChain_pair.mpr (by decide), by decide⟩
  have chain : (overfull.take 2).IsChain Element.Precedes :=
    List.isChain_pair.mpr (by decide)
  obtain ⟨c, built⟩ := (ofElements_inverse ⟨"T"⟩ fits').1.mpr chain
  exact ⟨fits, ((ofElements_inverse ⟨"T"⟩ fits).2.2.1 _).mpr ⟨_, _, gap, .inl ⟨rfl, rfl⟩⟩,
    c, built, ((ofElements_inverse ⟨"T"⟩ fits').2.1 c built).2.1⟩

end Chain

end Provenance
