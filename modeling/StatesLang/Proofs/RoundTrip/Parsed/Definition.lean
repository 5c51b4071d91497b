import StatesLang.Proofs.RoundTrip.Definition
import StatesLang.Proofs.RoundTrip.Parsed.Graphs

/-!
# What reading yields: definitions

* `Graph.admits_of_decodeStates`: states that are read from a text keep to the limit of nesting,
  also those parts of them that were only kept.
* **`Definition.parse_fits`**: a definition that is read reads back, as far as there is room for it;
  and there is room if nothing is left out.
-/

namespace StatesLang

open Json (Syntax Items Members)
open Decode (Origin)

/-! ## Room -/

namespace Decode.Origin

variable {o i : Origin}

theorem admits_of_inner {d : Nat} (h : o.inner = .ok i) :
    i.Admits 0 ∧ (i.Admits d → o.Admits (d + 1)) := by
  cases o with
  | text room =>
    rw [inner] at h
    split at h
    · cases h
    · cases h
      exact ⟨show 0 < room - 1 by omega, fun hd => show d + 1 < room by
        have : d < room - 1 := hd
        omega⟩
  | kept | document =>
    cases h
    exact ⟨trivial, id⟩

theorem admits_of_check (ho : o.Admits 0) {s : Syntax} (h : o.check s = .ok ()) :
    o.Admits s.depth := by
  cases o with
  | text room => exact Json.depth_lt_of_check ho s (mapError_eq_ok.1 h)
  | kept | document => trivial

theorem admits_of_checkItems (ho : o.Admits 0) {items : Items} (h : o.checkItems items = .ok ()) :
    o.Admits items.depth := by
  cases o with
  | text room => exact Json.depth_lt_of_checkItems ho items (mapError_eq_ok.1 h)
  | kept | document => trivial

end Decode.Origin

namespace StateType

theorem depth_of_decode {o : Origin} {v : Syntax} {type : StateType} (h : decode o v = .ok type) :
    v.depth = 0 := by
  cases v with
  | array _ | object _ => cases o <;> cases h
  | _ => rfl

/-- The members of a state are nested no deeper than there is room. -/
theorem admits_of_scan {o : Origin} (ho : o.Admits 0) : ∀ (members : Members)
    (found : Option StateType) (type : StateType), scan o found members = .ok type →
      o.Admits members.depth
  | .done, _, _, _ | .fault _, _, _, _ => ho
  | .more key value rest, found, type, h => by
    rw [Members.depth, Origin.admits_max]
    unfold scan at h
    obtain ⟨name, -, h⟩ := Decode.bind_eq_ok.1 h
    split at h
    · cases found with
      | some _ => cases h
      | none =>
        obtain ⟨found, hfound, h⟩ := Decode.bind_eq_ok.1 h
        rw [depth_of_decode hfound]
        exact ⟨ho, admits_of_scan ho rest _ type h⟩
    · obtain ⟨u, hcheck, h⟩ := Decode.bind_eq_ok.1 h
      exact ⟨Origin.admits_of_check ho hcheck, admits_of_scan ho rest found type h⟩

end StateType

theorem State.admits_of_decode {o : Origin} {s : Syntax} {t : State} (h : State.decode o s = .ok t)
    (ho : o.Admits 0) : o.Admits s.depth := by
  cases s with
  | object members =>
    rw [State.decode, Decode.bind_eq_ok] at h
    obtain ⟨i, hi, h⟩ := h
    obtain ⟨type, htype, -⟩ := Decode.bind_eq_ok.1 h
    obtain ⟨hzero, hroom⟩ := Origin.admits_of_inner hi
    exact hroom (StateType.admits_of_scan hzero members none type htype)
  | array items =>
    cases items with
    | more tag rest =>
      rw [State.decode, Decode.bind_eq_ok] at h
      obtain ⟨i, hi, h⟩ := h
      obtain ⟨type, htype, h⟩ := Decode.bind_eq_ok.1 h
      obtain ⟨u, hcheck, -⟩ := Decode.bind_eq_ok.1 h
      obtain ⟨hzero, hroom⟩ := Origin.admits_of_inner hi
      refine hroom ?_
      rw [Items.depth, Origin.admits_max, StateType.depth_of_decode htype]
      exact ⟨hzero, Origin.admits_of_checkItems hzero hcheck⟩
    | done | fault _ =>
      rw [State.decode, Decode.bind_eq_ok] at h
      obtain ⟨_, -, h⟩ := h
      cases h
  | _ => exact ho

namespace Graph

theorem admits_of_decodeMembers {o : Origin} (ho : o.Admits 0) : ∀ (members : Members)
    (before states : List (String × State)), decodeMembers o before members = .ok states →
      o.Admits members.depth
  | .done, _, _, _ | .fault _, _, _, _ => ho
  | .more key value rest, before, states, h => by
    rw [decodeMembers, Decode.bind_eq_ok] at h
    obtain ⟨name, -, h⟩ := h
    obtain ⟨s, hs, h⟩ := Decode.bind_eq_ok.1 h
    rw [Members.depth, Origin.admits_max]
    exact ⟨State.admits_of_decode hs ho, admits_of_decodeMembers ho rest _ states h⟩

/-- **States that are read keep to the limit of nesting.** -/
theorem admits_of_decodeStates {o : Origin} {s : Syntax} {states : List (String × State)}
    (h : decodeStates o s = .ok states) : o.Admits s.depth := by
  cases s with
  | object members =>
    rw [decodeStates, Decode.bind_eq_ok] at h
    obtain ⟨i, hi, h⟩ := h
    obtain ⟨hzero, hroom⟩ := Origin.admits_of_inner hi
    exact hroom (admits_of_decodeMembers hzero members [] states h)
  | _ =>
    rw [decodeStates] at h
    · cases h
    · intros
      contradiction

end Graph

/-! ## Definitions -/

namespace Definition

theorem decode_fits {room : Nat} {s : Syntax} {d : Definition}
    (h : decode (.text room) s = .ok d) : Graph.StatesFit (room - 2) d.graph.states := by
  refine (Decode.readRecord_preserves
    (P := fun d : Definition => Graph.StatesFit (room - 2) d.graph.states) ?_
    (Graph.statesFit_nil _) h).2
  intro inner d f v hsize d' hinner hd _ hf
  obtain ⟨⟨comment, startAt, states⟩, version, timeoutSeconds⟩ := d
  cases f with
  | states =>
    obtain ⟨states', hstates, hf⟩ := Decode.bind_eq_ok.1 hf
    cases hf
    refine (Graph.decodeStates_fits inner v states' hstates).mono ?_
    have hroom : v.depth + 1 < room :=
      (Origin.admits_of_inner hinner).2 (Graph.admits_of_decodeStates hstates)
    omega
  | comment | version | startAt | timeoutSeconds =>
    obtain ⟨_, -, hf⟩ := Decode.bind_eq_ok.1 hf
    cases hf
    exact hd

/-- **A definition that is read** reads back, and its document is nested no deeper than a text may
be if nothing is left out in it. -/
theorem parse_fits {text : String} {d : Definition} (h : parse text = .ok d) :
    d.graph.IsReadable ∧ (d.graph.IsFull → d.toJson.depth < Json.nestingLimit) := by
  rw [parse, Decode.wholeText, Decode.bind_eq_ok] at h
  obtain ⟨d', hd, h⟩ := h
  split at h
  · cases h
  · cases h
    have hfits := decode_fits hd
    refine ⟨Graph.isReadable_iff.2 hfits.readable, fun hfull => ?_⟩
    have hdepth := hfits.depth_lt (by decide) (Graph.isFull_iff.1 hfull).2
    rw [toJson_eq, depth_withStates, Json.depth]
    omega

end Definition

end StatesLang
