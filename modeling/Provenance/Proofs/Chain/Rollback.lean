import Provenance.Proofs.Chain.Cells
import Provenance.Proofs.Chain.Growth
import Provenance.Proofs.Chain.Offers
import Provenance.Proofs.Chain.Verdict
import Provenance.Proofs.Text.Decimal
import Provenance.Proofs.Text.Hex
set_option autoImplicit false

/-!
# Rollback: a history cut short

Whoever takes the newest rows of a history away leaves an intact history behind: a
verdict about some rows does not depend on later ones.  But the last row that is left
is still committed to the key that followed it, and no transfer can bind it to another
one (`handOver_of_rolledBack`).

A transfer tells a commitment from the element that starts a history by one thing: the
latter repeats its own key.  So everything rests on no key being its own commitment.
A derived key never is, unless SHA3-256 has one digest for two different texts: that of
the key starts with a position, and that of the generator with the next one.
-/

namespace Provenance

/-- The key of a passphrase is bound by the commitment to a later key, unless the two
texts have the same digest. -/
theorem Element.isBound_iff_of_derived {e : Element} {position next : Position} {token : Token}
    {passphrase : String} {key : Key} (made : e.key = .derive position token passphrase)
    (committed : e.generator = some (.derive next token key)) :
    e.isBound = true ↔
      digest (Key.source position token passphrase) ≠
        digest (Generator.source next token key) := by
  have texts : (Generator.derive next token key).text ≠ e.key.text ↔
      digest (Key.source position token passphrase) ≠
        digest (Generator.source next token key) := by
    rw [made, Generator.derive, Key.derive, ne_comm, ne_eq, hash_eq_hash_iff]
  rw [isBound_iff, committed]
  simpa using texts

/-- What is hashed for a generator is what would be hashed for a key, with the key that
it commits to as the passphrase.  So it differs from what is hashed for a key of the
position before. -/
theorem Generator.source_ne_of_succ {earlier later : Position}
    (next : later.toNat = earlier.toNat + 1) (token : Token) (passphrase : String) (key : Key) :
    Key.source earlier token passphrase ≠ source later token key :=
  Key.source_ne_of_succ next token passphrase key.text

/-- Counted from the first one, positions are the numbers below their number. -/
theorem Position.reverse_countdown (n : Nat) :
    (countdown n).reverse = (List.range n).map UInt64.ofNat := by
  induction n with
  | zero => rfl
  | succ n ih =>
    rw [countdown, List.reverse_cons, ih, List.range_succ, List.map_append, List.map_singleton]

/-- A link of the first rows is the same in all rows. -/
theorem BrokenLink.at?_take {token : Token} {elements : List Element} {i m : Nat}
    (inside : i + 1 < m) : at? token (elements.take m) i = at? token elements i :=
  at?_congr (List.getElem?_take_of_lt (Nat.lt_of_succ_lt inside))
    (List.getElem?_take_of_lt inside)

namespace Chain

/-! ## The first rows of a chain -/

/-- The first rows of a chain are a chain. -/
theorem exists_ofElements_take (c : Chain) (m : Nat) :
    ∃ d, ofElements c.token (c.elements.take m) = .ok d ∧ d.token = c.token ∧
      d.elements = c.elements.take m := by
  refine exists_ofElements_of_contiguous c.token ?_
  have contiguous := c.contiguous
  rw [newestFirst_eq, ← List.take_append_drop (c.elements.length - m) c.elements.reverse,
    List.map_append] at contiguous
  rw [List.reverse_take]
  exact contiguous.of_append

/-- The first rows of an intact chain are intact. -/
theorem intact_of_take {c d : Chain} {m : Nat} (token : d.token = c.token)
    (elements : d.elements = c.elements.take m) (intact : c.brokenLink? = none) :
    d.brokenLink? = none := by
  refine brokenLink?_eq_none_iff.mpr fun i => ?_
  rw [token, elements]
  by_cases inside : i + 1 < m
  · rw [BrokenLink.at?_take inside]
    exact brokenLink?_eq_none_iff.mp intact i
  · refine BrokenLink.at?_of_length_le (Nat.le_trans (List.length_take_le _ _) ?_)
    exact Nat.not_lt.mp inside

/-- The last of the first rows. -/
theorem last?_of_take {c d : Chain} {m : Nat} {e : Element}
    (elements : d.elements = c.elements.take (m + 1)) (there : c.elements[m]? = some e) :
    d.last? = some e := by
  have inside := (List.getElem?_eq_some_iff.mp there).1
  rw [last?, newestFirst_eq, List.head?_reverse, elements, List.getLast?_eq_getElem?,
    List.length_take, Nat.min_eq_left inside, Nat.succ_sub_one,
    List.getElem?_take_of_lt (Nat.lt_succ_self m), there]

/-! ## Refusing every key -/

/-- A chain refuses every key as already bound exactly if its last element is. -/
theorem handOver_eq_alreadyBound_iff {c : Chain} {last : Element} (ends : c.last? = some last) :
    (∀ key, c.handOver key = .error (.alreadyBound last.id)) ↔ last.isBound = true := by
  constructor
  · intro refused
    -- The last element also refuses its own key, so another one has to be offered.
    obtain ⟨key, differs⟩ : ∃ key : Key, last.key ≠ key := by
      by_cases vacant : last.key = ⟨""⟩
      · exact ⟨⟨"-"⟩, by simp [vacant]⟩
      · exact ⟨⟨""⟩, vacant⟩
    obtain ⟨last', ends', reason⟩ := handOver_eq_error_iff.mp (refused key)
    obtain rfl := Option.some.inj (ends.symm.trans ends')
    rcases reason with ⟨same | bound, _⟩ | ⟨_, _, other⟩
    · exact absurd same differs
    · exact bound
    · cases other
  · intro bound key
    exact handOver_eq_error_iff.mpr ⟨last, ends, .inl ⟨.inr bound, rfl⟩⟩

/-! ## Histories that started at the first position -/

variable {start : Start} {keys : List Key} {c : Chain} {i : Nat} {e : Element}

/-- The id of an element is its index. -/
theorem id_of_reached (reached : Reached start keys c) (there : c.elements[i]? = some e) :
    e.id = .ofNat i := by
  have ids : c.elements.map Element.id = (List.range keys.length).map UInt64.ofNat := by
    rw [elements, List.map_reverse, map_id_of_reached reached, Position.reverse_countdown]
  have counted := congrArg (·[i]?) ids
  simp only [List.getElem?_map, there, Option.map_some] at counted
  obtain ⟨j, found, same⟩ := Option.map_eq_some_iff.mp counted.symm
  obtain ⟨_, rfl⟩ := List.getElem?_eq_some_iff.mp found
  rw [← same, List.getElem_range]

/-- **A history that was cut short goes on with no key.**  However a chain started and
whatever keys it was offered, its rows up to any index but the last are a chain again,
and an intact one.  If the last of these rows has the key of a passphrase, then this
chain refuses every key, with the position of that row.  The one exception is that
SHA3-256 has the same digest for the text of that key and for the text of the generator
that commits to the key of the next row; these two texts always differ. -/
theorem handOver_of_rolledBack (start : Start) (offers : List Key) {m : Nat}
    (inside : m + 1 < (start.chain.offerAll offers).length) :
    let c := start.chain.offerAll offers
    ∃ d earlier later, ofElements c.token (c.elements.take (m + 1)) = .ok d ∧
      d.brokenLink? = none ∧
      c.elements[m]? = some earlier ∧ c.elements[m + 1]? = some later ∧
      ∀ passphrase, earlier.key = c.keyAt (.ofNat m) passphrase →
        Key.source (.ofNat m) c.token passphrase ≠
            Generator.source (.ofNat (m + 1)) c.token later.key ∧
          ((∀ key, d.handOver key = .error (.alreadyBound (.ofNat m))) ↔
            digest (Key.source (.ofNat m) c.token passphrase) ≠
              digest (Generator.source (.ofNat (m + 1)) c.token later.key)) := by
  intro c
  have reached : Reached start (start.keys ++ start.chain.accepted offers) c :=
    reached_offerAll (reached_start start) offers
  obtain ⟨d, built, token, elements⟩ := c.exists_ofElements_take (m + 1)
  obtain ⟨earlier, later, here, next⟩ := exists_neighbours inside
  refine ⟨d, _, _, built, intact_of_take token elements reached.intact, here, next,
    fun passphrase made => ⟨?_, ?_⟩⟩
  · refine Generator.source_ne_of_succ ?_ _ _ _
    -- A chain is never longer than there are positions, so no index wraps around.
    obtain ⟨base, fits, _⟩ := c.exists_base
    have room : m + 1 < UInt64.size := Nat.lt_of_lt_of_le inside (Nat.le_of_add_left_le fits)
    rw [UInt64.toNat_ofNat_of_lt' room, UInt64.toNat_ofNat_of_lt' (Nat.lt_of_succ_lt room)]
  · have committed := (linkedFrom_zero_iff.mpr reached.intact m _ _ (Nat.zero_le m) here next).1
    rw [Element.Commits, id_of_reached reached next] at committed
    rw [← id_of_reached reached here, handOver_eq_alreadyBound_iff (last?_of_take elements here)]
    rw [id_of_reached reached here]
    exact Element.isBound_iff_of_derived made committed

/-- The token of the passphrase `p`, before it is handed over. -/
def firstHolder : Chain where
  token := ⟨"T"⟩
  newestFirst := [.unlinked 0 (.derive 0 ⟨"T"⟩ "p")]
  expectedLength := 0
  contiguous := trivial

/-- A derived key is a hash, and a hash has an even number of digits. -/
theorem takes_firstHolder : Takes 1 ⟨"B"⟩ firstHolder.newestFirst := by
  refine ⟨fun same => ?_, rfl, by decide⟩
  have odd : Hex.decode "B" = .error .oddLength := by decide
  have even := Hex.decode_encode .upper (digest (Key.source 0 ⟨"T"⟩ "p")).toList
  have written : Hex.encode .upper (digest (Key.source 0 ⟨"T"⟩ "p")).toList = "B" :=
    congrArg Key.text same
  rw [written, odd] at even
  cases even

/-- When its second transfer is taken back, that token cannot be handed over to anybody,
unless two texts collide. -/
theorem handOver_of_rolledBack_firstHolder :
    let c := (Start.vacant ⟨"T"⟩ 0).chain.offerAll [.derive 0 ⟨"T"⟩ "p", ⟨"B"⟩]
    0 + 1 < c.length ∧
      ∃ d, ofElements ⟨"T"⟩ (c.elements.take 1) = .ok d ∧ d.brokenLink? = none ∧
        (digest "0Tp" ≠ digest "1TB" → ∀ key, d.handOver key = .error (.alreadyBound 0)) := by
  obtain ⟨c, grown, accepted⟩ := exists_handOver_of_takes takes_firstHolder
  obtain ⟨_, _, (token : c.token = ⟨"T"⟩), _⟩ := handOver_eq_ok_iff.mp accepted
  have rows : c.elements = (extended ⟨"T"⟩ 1 ⟨"B"⟩ firstHolder.newestFirst).reverse :=
    congrArg List.reverse grown
  have reached : (Start.vacant ⟨"T"⟩ 0).chain.offerAll [.derive 0 ⟨"T"⟩ "p", ⟨"B"⟩] = c := by
    have first : (Start.vacant ⟨"T"⟩ 0).chain.offer (.derive 0 ⟨"T"⟩ "p") = firstHolder := rfl
    rw [offerAll, List.foldl_cons, List.foldl_cons, List.foldl_nil, first, offer_of_ok accepted]
  have inside : 0 + 1 < c.length := by
    rw [length, grown]
    exact Nat.lt_succ_self 1
  rw [← reached] at inside
  have rolledBack := handOver_of_rolledBack (.vacant ⟨"T"⟩ 0) [.derive 0 ⟨"T"⟩ "p", ⟨"B"⟩] inside
  rw [reached] at inside rolledBack ⊢
  obtain ⟨d, earlier, later, built, intact, here, next, bound⟩ := rolledBack
  rw [rows] at here next
  obtain rfl := Option.some.inj here
  obtain rfl := Option.some.inj next
  have texts : Key.source (.ofNat 0) ⟨"T"⟩ "p" = "0Tp" ∧
      Generator.source (.ofNat (0 + 1)) ⟨"T"⟩ ⟨"B"⟩ = "1TB" := by decide
  obtain ⟨_, refused⟩ := bound "p" (by rw [keyAt, token]; rfl)
  rw [token] at refused built
  rw [← texts.1, ← texts.2]
  exact ⟨inside, d, built, intact, refused.mpr⟩

end Chain

end Provenance
