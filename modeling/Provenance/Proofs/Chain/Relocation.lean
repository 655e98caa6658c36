import Provenance.Proofs.Chain.Growth
import Provenance.Proofs.Chain.Tampering
import Provenance.Proofs.Chain.Verdict
import Provenance.Proofs.Text.Decimal
set_option autoImplicit false

/-!
# Relocation: a history moved to another token or to other positions

The rows of a token do not name it, so they are accepted as the rows of any other
token, and at any other positions that follow one another.  But the generators are made
from the token and the positions.  An intact history of two elements or more that is
moved is therefore found broken, and already at its last link
(`brokenLink?_of_relocated`).

What is hashed for a generator are digits, the token and the key, with nothing between
them.  Where both the position and the token change, the digits of one text could be
the beginning of the other one's token.  So the two tokens have to be of one size for
the texts to differ for sure (`Generator.source_ne_of_moved`).
-/

namespace Provenance

/-- What is hashed for a generator is different for another position, for another token,
and for both if the tokens have the same number of bytes. -/
theorem Generator.source_ne_of_moved {position position' : Position} {token token' : Token}
    (moved : token' ≠ token ∨ position' ≠ position)
    (told : position' = position ∨ token'.text.utf8ByteSize = token.text.utf8ByteSize)
    (key : Key) : source position token key ≠ source position' token' key := by
  intro same
  have texts : position.toNat.repr ++ token.text = position'.toNat.repr ++ token'.text := by
    rw [source, source, Part.joined_number, Part.joined_number] at same
    exact (String.append_left_inj key.text).mp (by simpa only [String.append_assoc] using same)
  have stays : position' = position ∧ token'.text = token.text := by
    rcases told with rfl | size
    · exact ⟨rfl, ((String.append_right_inj _).mp texts).symm⟩
    · obtain ⟨numbers, names⟩ := Decimal.repr_append_inj texts size.symm
      exact ⟨(UInt64.toNat_inj.mp numbers).symm, names.symm⟩
  rcases moved with renamed | displaced
  · cases token
    cases token'
    exact renamed (congrArg Token.mk stays.2)
  · exact displaced stays.1

/-! ## Shifted elements -/

namespace Element

/-- The element with a position that is greater by an offset, or less if that is
negative. -/
def shifted (offset : Int) (e : Element) : Element :=
  { e with id := .ofNat (e.id.toNat + offset).toNat }

/-- Whether there is such a position. -/
def Shifts (offset : Int) (e : Element) : Prop :=
  0 ≤ e.id.toNat + offset ∧ e.id.toNat + offset < UInt64.size

theorem toNat_id_shifted {offset : Int} {e : Element} (fits : e.Shifts offset) :
    ((e.shifted offset).id.toNat : Int) = e.id.toNat + offset := by
  obtain ⟨positive, small⟩ := fits
  rw [shifted, UInt64.toNat_ofNat_of_lt' (by omega), Int.toNat_of_nonneg positive]

end Element

/-- Positions still follow one another when all of them are shifted. -/
theorem Contiguous.shifted {offset : Int} {elements : List Element}
    (contiguous : Contiguous (elements.map Element.id)) (fits : ∀ e ∈ elements, e.Shifts offset) :
    Contiguous ((elements.map (Element.shifted offset)).map Element.id) := by
  induction elements with
  | nil => trivial
  | cons later older ih =>
    cases older with
    | nil => trivial
    | cons earlier older =>
      obtain ⟨next, rest⟩ := contiguous
      refine ⟨?_, ih rest fun e there => fits e (List.mem_cons_of_mem later there)⟩
      have room := Element.toNat_id_shifted (fits later List.mem_cons_self)
      have room' := Element.toNat_id_shifted
        (fits earlier (List.mem_cons_of_mem later List.mem_cons_self))
      rw [Position.next?_eq_some_iff] at next ⊢
      omega

/-- A link that holds, with both elements shifted and for another token. -/
theorem BrokenLink.between?_shifted {token : Token} {earlier later : Element}
    (holds : between? token later earlier = none) (token' : Token) (offset : Int) :
    between? token' (later.shifted offset) (earlier.shifted offset) =
      if digest (Generator.source later.id token later.key) =
        digest (Generator.source (later.shifted offset).id token' later.key)
      then none else some (.generatorMismatch (earlier.shifted offset).id) := by
  obtain ⟨committed, confirmed⟩ := between?_eq_none_iff.mp holds
  split
  case isTrue collide =>
    refine between?_eq_none_iff.mpr ⟨committed.trans ?_, confirmed⟩
    exact congrArg some (Generator.derive_eq_derive_iff.mpr collide)
  case isFalse apart =>
    refine between?_of_ofGenerator? ?_
    simp only [ofGenerator?, Element.shifted, committed]
    exact if_neg fun same => apart (Generator.derive_eq_derive_iff.mp same)

namespace Chain

/-- Each position stands in one element only. -/
theorem index_unique (c : Chain) {i j : Nat} {e f : Element} (here : c.elements[i]? = some e)
    (there : c.elements[j]? = some f) (same : e.id = f.id) : i = j := by
  obtain ⟨base, _, counted⟩ := c.exists_base
  have position {k : Nat} {g : Element} (found : c.elements[k]? = some g) :
      g.id.toNat = base + k := by
    have known := congrArg (·[k]?) counted
    simp only [List.getElem?_map, found, Option.map_some] at known
    obtain ⟨inside, value⟩ := List.getElem?_eq_some_iff.mp known.symm
    rw [← value, List.getElem_range', Nat.one_mul]
  have first := position here
  have second := position there
  rw [same] at first
  omega

/-- What is reported is told by its position to be about a link that is broken. -/
theorem at?_ne_none_of_reported {c : Chain} {link : BrokenLink} {i : Nat} {e : Element}
    (reported : c.brokenLink? = some link) (here : c.elements[i]? = some e)
    (names : link.id = e.id) : BrokenLink.at? c.token c.elements i ≠ none := by
  obtain ⟨j, broken, _⟩ := brokenLink?_eq_some_iff_at?.mp reported
  obtain ⟨earlier, later, there, _, described⟩ := BrokenLink.at?_eq_some_iff.mp broken
  obtain rfl := c.index_unique here there (names.symm.trans described.id_eq)
  exact ne_of_eq_of_ne broken (Option.some_ne_none link)

/-- **A history cannot be moved.**  Take an intact chain of two elements or more, and
move its rows: to another token, by an offset that leaves all positions in their range,
or both if the two tokens have the same number of bytes.  The rows are accepted as a
chain, and a generator mismatch is reported at the last element but one.  The one
exception is that SHA3-256 has the same digest for the two texts that are hashed for
its generator, from where the last element was and from where it is now; these two
texts always differ. -/
theorem brokenLink?_of_relocated {c : Chain} (intact : c.brokenLink? = none)
    (several : 2 ≤ c.length) {token : Token} {offset : Int}
    (fits : ∀ e ∈ c.elements, e.Shifts offset) (moved : token ≠ c.token ∨ offset ≠ 0)
    (told : offset = 0 ∨ token.text.utf8ByteSize = c.token.text.utf8ByteSize) :
    ∃ d earlier later, ofElements token (c.elements.map (Element.shifted offset)) = .ok d ∧
      c.elements[c.length - 2]? = some earlier ∧ c.elements[c.length - 1]? = some later ∧
      Generator.source later.id c.token later.key ≠
          Generator.source (later.shifted offset).id token later.key ∧
        (d.brokenLink? = some (.generatorMismatch (earlier.shifted offset).id) ↔
          digest (Generator.source later.id c.token later.key) ≠
            digest (Generator.source (later.shifted offset).id token later.key)) := by
  have contiguous : Contiguous
      ((c.elements.map (Element.shifted offset)).reverse.map Element.id) := by
    rw [← List.map_reverse, ← newestFirst_eq]
    refine c.contiguous.shifted fun e there => fits e ?_
    exact List.mem_reverse.mpr there
  obtain ⟨d, built, rfl, elements⟩ := exists_ofElements_of_contiguous token contiguous
  obtain ⟨n, counted⟩ := Nat.exists_eq_add_of_le' several
  rw [counted, Nat.add_sub_cancel, Nat.add_succ_sub_one]
  obtain ⟨earlier, later, here, next⟩ := exists_neighbours (Nat.le_of_eq counted.symm)
  have holds := BrokenLink.between?_of_at? (brokenLink?_eq_none_iff.mp intact n) here next
  have here' := congrArg (Option.map (Element.shifted offset)) here
  have next' := congrArg (Option.map (Element.shifted offset)) next
  rw [← List.getElem?_map, ← elements] at here' next'
  have link := (BrokenLink.at?_of_getElem? here' next').trans
    (BrokenLink.between?_shifted holds d.token offset)
  refine ⟨d, _, _, built, here, next, ?_, ?_, ?_⟩
  · have same := Element.toNat_id_shifted (fits _ (List.mem_of_getElem? next))
    refine Generator.source_ne_of_moved (moved.imp_right ?_) (told.imp_left ?_) _
    · intro displaced stays
      rw [stays] at same
      omega
    · rintro rfl
      rw [Int.add_zero, Int.ofNat_inj] at same
      exact UInt64.toNat_inj.mp same
  · -- A link between colliding texts would still hold, and not be reported.
    intro reported collide
    rw [if_pos collide] at link
    exact at?_ne_none_of_reported reported here' rfl link
  · intro apart
    rw [if_neg apart] at link
    refine brokenLink?_of_last link fun j behind => BrokenLink.at?_of_length_le ?_
    rw [elements, List.length_map, length_elements, counted]
    omega

/-- The rows of three keys, taken for those of another token from position 7 on. -/
theorem brokenLink?_of_relocated_threeKeys :
    threeKeys.brokenLink? = none ∧ 2 ≤ threeKeys.length ∧
      (∀ e ∈ threeKeys.elements, e.Shifts 7) ∧
      ((⟨"U"⟩ : Token) ≠ threeKeys.token ∨ (7 : Int) ≠ 0) ∧
      ((7 : Int) = 0 ∨ "U".utf8ByteSize = threeKeys.token.text.utf8ByteSize) ∧
      ∃ d, ofElements ⟨"U"⟩ (threeKeys.elements.map (Element.shifted 7)) = .ok d ∧
        (digest "2TC" ≠ digest "9UC" → d.brokenLink? = some (.generatorMismatch 8)) := by
  have intact : threeKeys.brokenLink? = none := History.first?_reverse_rows _ _
  have several : 2 ≤ threeKeys.length := by decide
  have fits : ∀ e ∈ threeKeys.elements, e.Shifts 7 := by
    intro e there
    have ids : threeKeys.elements.map (fun e => e.id.toNat) = List.range 3 := rfl
    have bound : e.id.toNat < 3 := by
      rw [← List.mem_range, ← ids]
      exact List.mem_map_of_mem there
    have size : UInt64.size = 2 ^ 64 := rfl
    exact ⟨by omega, by omega⟩
  have moved : (⟨"U"⟩ : Token) ≠ threeKeys.token ∨ (7 : Int) ≠ 0 := .inl (by decide)
  have told : (7 : Int) = 0 ∨ "U".utf8ByteSize = threeKeys.token.text.utf8ByteSize :=
    .inr (by decide)
  obtain ⟨d, earlier, later, built, here, next, _, verdict⟩ :=
    brokenLink?_of_relocated intact several fits moved told
  obtain rfl : History.row ⟨"T"⟩ [⟨"A"⟩, ⟨"B"⟩, ⟨"C"⟩] 1 ⟨"B"⟩ = earlier := Option.some.inj here
  obtain rfl : History.row ⟨"T"⟩ [⟨"A"⟩, ⟨"B"⟩, ⟨"C"⟩] 2 ⟨"C"⟩ = later := Option.some.inj next
  have texts : Generator.source 2 ⟨"T"⟩ ⟨"C"⟩ = "2TC" ∧ Generator.source 9 ⟨"U"⟩ ⟨"C"⟩ = "9UC" := by
    decide
  refine ⟨intact, several, fits, moved, told, d, built, fun apart => verdict.mpr ?_⟩
  rw [← texts.1, ← texts.2] at apart
  exact apart

end Chain

end Provenance
