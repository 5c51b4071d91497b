import StatesLang.Proofs.Comparison.Equality
import StatesLang.Proofs.RoundTrip.Path

/-!
# Nodes and their paths

A node of a document is known by the steps that lead to it, and these can be written down. Whatever
the names on the way are made of, the text leads to the node again; two dots side by side are the
only exception.

* `Path.Node`: the nodes of a document, each with the steps to it.
* `Path.follow_iff_node`: following steps leads to the node that they are the steps to.
* **`Path.selectText_renderSteps_iff`**: what is read from written steps, and what it selects.
-/

namespace StatesLang.Path

/-- The nodes of a document, each with the steps to it: any member of an object and any item of an
array is one step below. -/
inductive Node : Json → List Step → Json → Prop
  | root (document : Json) : Node document [] document
  | member {members : List (String × Json)} {name : String} {value node : Json} {ss : List Step}
    (hmember : (name, value) ∈ members) (h : Node value ss node) :
    Node (.object members) (.field name :: ss) node
  | item {items : List Json} {i : UInt64} {value node : Json} {ss : List Step}
    (hitem : items[i.toNat]? = some value) (h : Node value ss node) :
    Node (.array items) (.index i :: ss) node

variable {document node : Json} {ss : List Step}

theorem Node.follow (h : Node document ss node) (hd : document.KeysDistinct) :
    follow document ss = some node := by
  induction h with
  | root => rfl
  | @member members name value node ss hmember h ih =>
    have hvalue := Json.lookup_of_mem hd.nodup hmember
    rw [Path.follow, Step.follow, hvalue, Option.bind_some, ih (hd.member hvalue)]
  | @item items i value node ss hitem h ih =>
    rw [Path.follow, Step.follow, hitem, Option.bind_some, ih (hd.item hitem)]

theorem node_of_follow (h : follow document ss = some node) : Node document ss node := by
  induction ss generalizing document with
  | nil =>
    cases h
    exact .root node
  | cons s ss ih =>
    obtain ⟨value, hvalue, hrest⟩ := Option.bind_eq_some_iff.1 h
    unfold Step.follow at hvalue
    split at hvalue
    · exact .member (Json.lookup_mem hvalue) (ih hrest)
    · exact .item hvalue (ih hrest)
    · cases hvalue

/-- Following steps ends at the node that they lead to, and nowhere if they lead to none. -/
theorem follow_iff_node (hd : document.KeysDistinct) :
    follow document ss = some node ↔ Node document ss node :=
  ⟨node_of_follow, fun h => h.follow hd⟩

/-- **Every node is found by the text of the steps to it**, unless a name on the way holds two dots
side by side. Whatever the steps are, their text reads back as these steps, or it passes for a scan,
and then it selects nothing. -/
theorem selectText_renderSteps_iff (ss : List Step) :
    (parse (renderSteps ss) =
      if ∃ s ∈ ss, s.HasScan then .error .scan else .ok ⟨renderSteps ss, ss⟩) ∧
    ∀ document : Json, document.KeysDistinct → ∀ node,
      selectText document (renderSteps ss) = some node ↔
        (∀ s ∈ ss, ¬ s.HasScan) ∧ Node document ss node := by
  by_cases hscan : ∃ s ∈ ss, s.HasScan
  · have hparse : parse (renderSteps ss) = .error .scan := parse_renderSteps_scan hscan
    refine ⟨hparse.trans (if_pos hscan).symm, fun document _ node => iff_of_false ?_ ?_⟩
    · intro h
      rw [selectText, hparse] at h
      cases h
    · intro h
      obtain ⟨s, hs, hdots⟩ := hscan
      exact h.1 s hs hdots
  · have hplain : ∀ s ∈ ss, ¬ s.HasScan := fun s hs hdots => hscan ⟨s, hs, hdots⟩
    have hparse : parse (renderSteps ss) = .ok ⟨renderSteps ss, ss⟩ := parse_renderSteps hplain
    refine ⟨hparse.trans (if_neg hscan).symm, fun document hd node => ?_⟩
    rw [selectText_of_parse hparse, follow_iff_node hd]
    exact ⟨fun h => ⟨hplain, h⟩, fun h => h.2⟩

/-- An empty name, a name with quotes and brackets, an index, and a name with backslashes. -/
def oddSteps : List Step :=
  [.field "", .field "['it's']", .index 1, .field ".\\'\\"]

/-- A document with a node behind these steps. -/
def oddDocument : Json :=
  .object [("", .object [("['it's']", .array [.null, .object [(".\\'\\", .string "here")]])])]

theorem oddSteps_select :
    renderSteps oddSteps = "$['']['[\\'it\\'s\\']'][1]['.\\\\\\'\\\\']" ∧
      oddDocument.KeysDistinct ∧ Node oddDocument oddSteps (.string "here") ∧
      selectText oddDocument (renderSteps oddSteps) = some (.string "here") := by
  have hd : oddDocument.KeysDistinct := by
    simp [oddDocument, Json.KeysDistinct, Json.KeysDistinctMembers, Json.KeysDistinctItems]
  have hnode : Node oddDocument oddSteps (.string "here") :=
    .member List.mem_cons_self (.member List.mem_cons_self
      (.item rfl (.member List.mem_cons_self (.root _))))
  exact ⟨by cbv, hd, hnode,
    ((selectText_renderSteps_iff oddSteps).2 _ hd _).2 ⟨by decide +kernel, hnode⟩⟩

end StatesLang.Path
