import Dcfpe.Service.NodeManager
import Mathlib.Data.List.Nodup

/-!
# Late replies

A reply to a Hello finds its node by the id it is bound to, when it comes.  The ids are the numbers
0, 1, 2, … as an `int32_t` has them, so the nodes of the list have different ids until all values of
the type have been used; and a reply that finds no node is one whose node has been removed.
`HandleResponseImpl` does not look whether it has found one.

`late_replies_iff` says which runs go well.
-/

set_option autoImplicit false

namespace Dcfpe.DPENodeManager

/-! ## The ids -/

theorem int32_inj {i j : Nat} (hi : i < 4294967296) (hj : j < 4294967296)
    (h : int32 i = int32 j) : i = j := by
  simp only [int32] at h
  omega

theorem int32_succ (i : Nat) : int32 (int32 i + 1) = int32 (i + 1 : Nat) := by
  simp only [int32]
  omega

theorem nodup_ids_iff (n : Nat) :
    ((List.range n).map fun (i : Nat) => int32 i).Nodup ↔ n ≤ 4294967296 := by
  constructor
  · intro h
    by_contra hn
    have h0 : 0 ∈ List.range n := List.mem_range.2 (by omega)
    have hlast : 4294967296 ∈ List.range n := List.mem_range.2 (by omega)
    exact absurd (List.inj_on_of_nodup_map h h0 hlast (by decide)) (by decide)
  · intro hn
    refine List.Nodup.map_on (fun i hi j hj h => ?_) List.nodup_range
    rw [List.mem_range] at hi hj
    exact int32_inj (by omega) (by omega) h

/-! ## The invariant -/

/-- What replies do not change in the nodes of the list. -/
def tags (m : DPENodeManager) : List (Nat × Int × Bytes) :=
  m.nodeList.map fun node => (node.object, node.nodeId, node.serverAddress)

structure Inv (m : DPENodeManager) : Prop where
  next : m.nextNodeId = int32 m.issued.length
  issued : m.issued = (List.range m.issued.length).map fun (i : Nat) => int32 i
  nodes : ∀ tag ∈ m.tags, tag.1 < m.issued.length ∧ tag.2.1 = int32 tag.1
  objects : (m.tags.map Prod.fst).Nodup
  addresses : (m.tags.map fun tag => tag.2.2).Nodup
  pending : ∀ c ∈ m.pending, c.object < m.issued.length ∧ c.nodeId = int32 c.object

theorem inv_empty : Inv {} where
  next := rfl
  issued := rfl
  nodes := by simp [tags]
  objects := List.nodup_nil
  addresses := List.nodup_nil
  pending := by simp

theorem tags_modify (m : DPENodeManager) (i : Nat) {f : DPENode → DPENode}
    (hf : ∀ node, (f node).object = node.object ∧ (f node).nodeId = node.nodeId ∧
      (f node).serverAddress = node.serverAddress) :
    tags { m with nodeList := m.nodeList.modify i f } = m.tags := by
  simp only [tags]
  generalize m.nodeList = l
  induction l generalizing i with
  | nil => simp
  | cons node l ih =>
    rcases i with _ | i
    · simp [hf node]
    · simpa using ih i

theorem Inv.addNode {m : DPENodeManager} (h : m.Inv) (address : Bytes) :
    (m.addNode address).Inv := by
  rw [DPENodeManager.addNode]
  split
  · exact h
  · next hnew =>
    have haddress : address ∉ m.tags.map fun tag => tag.2.2 := by
      simpa [tags] using hnew
    have hobject : m.issued.length ∉ m.tags.map Prod.fst := by
      intro hmem
      obtain ⟨tag, htag, heq⟩ := List.mem_map.1 hmem
      have := (h.nodes tag htag).1
      omega
    have htags : ∀ (m' : DPENodeManager), m'.nodeList = m.nodeList ++
        [{ object := m.issued.length, nodeId := m.nextNodeId, serverAddress := address }] →
        m'.tags = m.tags ++ [(m.issued.length, m.nextNodeId, address)] := by
      intro m' hm'
      rw [tags, hm', List.map_append]
      rfl
    refine ⟨?_, ?_, ?_, ?_, ?_, ?_⟩
    · simp only [List.length_append, List.length_singleton, h.next]
      exact int32_succ _
    · simp only [List.length_append, List.length_singleton, List.range_succ, List.map_append,
        ← h.issued, List.map_cons, List.map_nil, h.next]
    · rw [htags _ rfl]
      intro tag htag
      rw [List.length_append, List.length_singleton]
      rcases List.mem_append.1 htag with htag | htag
      · have := h.nodes tag htag
        exact ⟨by omega, this.2⟩
      · rw [List.mem_singleton] at htag
        subst htag
        exact ⟨Nat.lt_succ_self _, h.next⟩
    · rw [htags _ rfl, List.map_append, List.map_singleton]
      exact h.objects.append (List.nodup_singleton _) (List.disjoint_singleton.2 hobject)
    · rw [htags _ rfl, List.map_append, List.map_singleton]
      exact h.addresses.append (List.nodup_singleton _) (List.disjoint_singleton.2 haddress)
    · intro c hc
      rw [List.length_append, List.length_singleton]
      rcases List.mem_append.1 hc with hc | hc
      · have := h.pending c hc
        exact ⟨by omega, this.2⟩
      · rw [List.mem_singleton] at hc
        subst hc
        exact ⟨Nat.lt_succ_self _, h.next⟩

theorem Inv.removeNode {m : DPENodeManager} (h : m.Inv) (address : Bytes) (removeLocal : Bool) :
    (m.removeNode address removeLocal).Inv := by
  have hsub : (m.removeNode address removeLocal).tags.Sublist m.tags :=
    List.filter_sublist.map _
  exact ⟨h.next, h.issued, fun tag htag => h.nodes tag (hsub.subset htag),
    h.objects.sublist (hsub.map _), h.addresses.sublist (hsub.map _), h.pending⟩

/-- Nodes and waiting Hellos may change as long as their tags stay. -/
theorem Inv.of_tags {m m' : DPENodeManager} (h : m.Inv) (hnext : m'.nextNodeId = m.nextNodeId)
    (hissued : m'.issued = m.issued) (htags : m'.tags = m.tags)
    (hpending : ∀ c ∈ m'.pending, c ∈ m.pending) : m'.Inv := by
  refine ⟨?_, ?_, ?_, ?_, ?_, ?_⟩
  · rw [hnext, hissued, h.next]
  · rw [hissued, ← h.issued]
  · rw [htags, hissued]
    exact h.nodes
  · rw [htags]
    exact h.objects
  · rw [htags]
    exact h.addresses
  · rw [hissued]
    exact fun c hc => h.pending c (hpending c hc)

theorem inv_start (address : Option Bytes) : (start address).Inv := by
  rcases address with _ | address
  · exact inv_empty
  · refine (inv_empty.addNode address).of_tags rfl rfl ?_ fun c hc => hc
    exact tags_modify _ 0 fun node => ⟨rfl, rfl, rfl⟩

theorem handleMulticast_eq (data : Bytes) (m : DPENodeManager) :
    handleMulticast data m = m ∨
      (∃ address, handleMulticast data m = m.removeNode address false) ∨
      ∃ address, handleMulticast data m = m.addNode address := by
  rw [handleMulticast]
  generalize (tokenize data).foldl readMulticastLine ([], []) = read
  obtain ⟨action, address⟩ := read
  dsimp only
  split
  · split
    · exact Or.inl rfl
    · exact Or.inr (Or.inr ⟨address, rfl⟩)
  · split
    · split
      · exact Or.inl rfl
      · exact Or.inr (Or.inl ⟨address, rfl⟩)
    · exact Or.inl rfl

/-- What a valid reply does, if it finds a node. -/
theorem handleResponseImpl_valid {rep : HelloReply} {strings : List (String × Bytes)} {ots : Bytes}
    (h : helloResponse rep = some (strings, ots)) (m : DPENodeManager) (id now : Int) :
    m.handleResponseImpl id rep now =
      (m.getNodeById id).map fun i =>
        { m with nodeList := m.nodeList.modify i (answered strings ots now) } := by
  rw [handleResponseImpl, h]
  dsimp only
  cases m.getNodeById id with
  | none => rfl
  | some i => rfl

theorem handleResponseImpl_invalid {rep : HelloReply} (h : helloResponse rep = none)
    (m : DPENodeManager) (id now : Int) : m.handleResponseImpl id rep now = some m := by
  rw [handleResponseImpl, h]

theorem inv_step {m t : DPENodeManager} {a : Label} (h : m.Inv) (hs : step m a = some t) :
    t.Inv := by
  cases a with
  | multicast data =>
    obtain rfl := Option.some.inj hs
    rcases handleMulticast_eq data m with heq | ⟨address, heq⟩ | ⟨address, heq⟩
    · rwa [heq]
    · rw [heq]
      exact h.removeNode address false
    · rw [heq]
      exact h.addNode address
  | addNode address =>
    obtain rfl := Option.some.inj hs
    exact h.addNode address
  | removeNode address removeLocal =>
    obtain rfl := Option.some.inj hs
    exact h.removeNode address removeLocal
  | reply k rep now =>
    simp only [step] at hs
    split at hs
    · have hkept : ∀ c ∈ m.pending.eraseIdx k, c ∈ m.pending := fun c hc =>
        List.mem_of_mem_eraseIdx hc
      cases hvalid : helloResponse rep with
      | some valid =>
        rw [handleResponseImpl_valid hvalid] at hs
        obtain ⟨i, -, rfl⟩ := Option.map_eq_some_iff.1 hs
        exact h.of_tags rfl rfl (tags_modify m i fun node => ⟨rfl, rfl, rfl⟩) hkept
      | none =>
        rw [handleResponseImpl_invalid hvalid] at hs
        obtain rfl := Option.some.inj hs
        exact h.of_tags rfl rfl rfl hkept
    · cases hs

/-! ## Which steps go well -/

/-- The addresses of the list are distinct, and no id has been handed out twice. -/
structure Good (m : DPENodeManager) : Prop where
  addresses : (m.nodeList.map (·.serverAddress)).Nodup
  issued : m.issued.Nodup

/-- A valid reply changes the node whose Hello it answers, and nothing when that is not there. -/
def Routed (m : DPENodeManager) : Label → Prop
  | .reply k rep now => ∀ callback strings ots, m.pending[k]? = some callback →
      helloResponse rep = some (strings, ots) →
      ∃ t, step m (.reply k rep now) = some t ∧
        t.nodeList = m.nodeList.map fun node =>
          if node.object = callback.object then answered strings ots now node else node
  | _ => True

/-- The address that a label brings. -/
def Label.address : Label → Option Bytes
  | .multicast data =>
    let (action, address) := (tokenize data).foldl readMulticastLine ([], [])
    if action = ascii "advertise" ∧ address ≠ [] then some address else none
  | .addNode address => some address
  | _ => none

/-- When an address is new, not all ids have been used; when a valid reply comes, a node with the id
it is bound to is there. -/
def Fine (m : DPENodeManager) : Label → Prop
  | .reply k rep _ => ∀ callback, m.pending[k]? = some callback → (helloResponse rep).isSome →
      ∃ node ∈ m.nodeList, node.nodeId = callback.nodeId
  | a => ∀ address, a.address = some address →
      (∀ node ∈ m.nodeList, node.serverAddress ≠ address) → m.issued.length < 4294967296

instance (m : DPENodeManager) (k : Nat) (rep : HelloReply) (now : Int) :
    Decidable (Fine m (.reply k rep now)) :=
  inferInstanceAs (Decidable (∀ callback ∈ m.pending[k]?, (helloResponse rep).isSome →
    ∃ node ∈ m.nodeList, node.nodeId = callback.nodeId))

theorem Inv.good_iff {m : DPENodeManager} (h : m.Inv) :
    m.Good ↔ m.issued.length ≤ 4294967296 := by
  have haddresses : (m.nodeList.map (·.serverAddress)).Nodup := by
    have := h.addresses
    rwa [tags, List.map_map] at this
  rw [← nodup_ids_iff, ← h.issued]
  exact ⟨fun hm => hm.issued, fun hissued => ⟨haddresses, hissued⟩⟩

theorem length_addNode (m : DPENodeManager) (address : Bytes) :
    (m.addNode address).issued.length =
      if ∀ node ∈ m.nodeList, node.serverAddress ≠ address then m.issued.length + 1
      else m.issued.length := by
  rw [DPENodeManager.addNode]
  by_cases hnew : ∀ node ∈ m.nodeList, node.serverAddress ≠ address
  · rw [if_pos hnew, if_neg (by simpa using hnew), List.length_append, List.length_singleton]
  · rw [if_neg hnew, if_pos (by simpa using hnew)]

theorem handleMulticast_address (data : Bytes) (m : DPENodeManager) :
    (∃ address, (Label.multicast data).address = some address ∧
      handleMulticast data m = m.addNode address) ∨
      (Label.multicast data).address = none ∧
        (handleMulticast data m).issued = m.issued := by
  rw [handleMulticast, Label.address]
  generalize (tokenize data).foldl readMulticastLine ([], []) = read
  obtain ⟨action, address⟩ := read
  dsimp only
  by_cases hadvertise : action = ascii "advertise"
  · by_cases haddress : address = []
    · simp [hadvertise, haddress]
    · simp [hadvertise, haddress]
  · simp only [hadvertise, false_and, if_false]
    right
    refine ⟨trivial, ?_⟩
    split
    · split
      · rfl
      · rfl
    · rfl

/-- The places of the nodes with an id, when no two have the same object. -/
theorem modify_findIdx {l : List DPENode} {id : Int} {object i : Nat} {f : DPENode → DPENode}
    (hl : ∀ node ∈ l, node.nodeId = id ↔ node.object = object)
    (hobjects : (l.map (·.object)).Nodup) (hi : l.findIdx? (·.nodeId = id) = some i) :
    l.modify i f = l.map fun node => if node.object = object then f node else node := by
  induction l generalizing i with
  | nil => simp at hi
  | cons node l ih =>
    rw [List.map_cons, List.nodup_cons] at hobjects
    rw [List.findIdx?_cons] at hi
    by_cases hnode : node.nodeId = id
    · rw [if_pos (by simpa using hnode), Option.some_inj] at hi
      subst hi
      have hobject := (hl node List.mem_cons_self).1 hnode
      have hrest : l.map (fun node => if node.object = object then f node else node) = l := by
        refine (List.map_congr_left fun n hn => if_neg fun h => ?_).trans (List.map_id l)
        exact hobjects.1 (List.mem_map.2 ⟨n, hn, h.trans hobject.symm⟩)
      rw [List.modify_zero_cons, List.map_cons, if_pos hobject, hrest]
    · have hobject : node.object ≠ object := fun h => hnode ((hl node List.mem_cons_self).2 h)
      rw [if_neg (by simpa using hnode)] at hi
      obtain ⟨j, hj, rfl⟩ := Option.map_eq_some_iff.1 hi
      rw [List.modify_succ_cons, List.map_cons, if_neg hobject,
        ih (fun n hn => hl n (List.mem_cons_of_mem node hn)) hobjects.2 hj]

/-- A reply is handled to its end unless it is valid and no node has the id of its Hello. -/
theorem reply_isSome_iff {m : DPENodeManager} {k : Nat} {callback : HelloCallback}
    (hk : m.pending[k]? = some callback) {rep : HelloReply} {now : Int} :
    (step m (.reply k rep now)).isSome ↔ Fine m (.reply k rep now) := by
  simp only [step, hk, Fine, Option.some_inj, forall_eq']
  rcases hvalid : helloResponse rep with _ | valid
  · simp [handleResponseImpl_invalid hvalid]
  · simp [handleResponseImpl_valid hvalid, getNodeById, List.findIdx?_isSome]

/-- With different ids in the list, a valid reply is routed just when some node has its id. -/
theorem routed_reply_iff {m : DPENodeManager} (h : m.Inv) (hgood : m.issued.length ≤ 4294967296)
    (k : Nat) (rep : HelloReply) (now : Int) :
    Routed m (.reply k rep now) ↔ Fine m (.reply k rep now) := by
  constructor
  · intro hrouted callback hk hvalid
    obtain ⟨⟨strings, ots⟩, hread⟩ := Option.isSome_iff_exists.1 hvalid
    obtain ⟨t, hstep, -⟩ := hrouted callback strings ots hk hread
    exact (reply_isSome_iff hk).1 (Option.isSome_of_eq_some hstep) callback hk hvalid
  · intro hfine callback strings ots hk hvalid
    obtain ⟨node, hnode, hid⟩ := hfine callback hk (by rw [hvalid]; rfl)
    obtain ⟨i, hi⟩ : ∃ i, m.nodeList.findIdx? (·.nodeId = callback.nodeId) = some i := by
      refine Option.isSome_iff_exists.1 ?_
      rw [List.findIdx?_isSome, List.any_eq_true]
      exact ⟨node, hnode, by simpa using hid⟩
    have hsame : ∀ n ∈ m.nodeList, n.nodeId = callback.nodeId ↔ n.object = callback.object := by
      intro n hn
      have hcallback := h.pending callback (List.mem_of_getElem? hk)
      have htag := h.nodes _ (List.mem_map_of_mem hn)
      dsimp only at htag
      rw [htag.2, hcallback.2]
      exact ⟨int32_inj (by omega) (by omega), fun heq => by rw [heq]⟩
    have hobjects : (m.nodeList.map (·.object)).Nodup := by
      have := h.objects
      rwa [tags, List.map_map] at this
    refine ⟨{ m with
        pending := m.pending.eraseIdx k
        nodeList := m.nodeList.modify i (answered strings ots now) }, ?_, ?_⟩
    · simp only [step, hk, handleResponseImpl_valid hvalid, getNodeById, hi, Option.map_some]
    · exact modify_findIdx hsame hobjects hi

/-- **One step.**  It leaves the list as it should be, and routes what comes, exactly when it is
fine. -/
theorem step_iff {m : DPENodeManager} (h : m.Inv) (hgood : m.Good) (a : Label) :
    ((∀ t, step m a = some t → t.Good) ∧ Routed m a) ↔ Fine m a := by
  have hlength := h.good_iff.1 hgood
  have hadd : ∀ address, (m.addNode address).Good ↔
      ((∀ node ∈ m.nodeList, node.serverAddress ≠ address) → m.issued.length < 4294967296) := by
    intro address
    rw [(h.addNode address).good_iff, length_addNode]
    split
    · next hnew => exact ⟨fun hle _ => by omega, fun hlt => hlt hnew⟩
    · next hnew => exact ⟨fun _ hall => absurd hall hnew, fun _ => hlength⟩
  have hkept : ∀ {t}, step m a = some t → t.issued = m.issued → t.Good := fun hs ht =>
    (inv_step h hs).good_iff.2 (ht ▸ hlength)
  cases a with
  | multicast data =>
    have hstep : ∀ t, step m (.multicast data) = some t ↔ handleMulticast data m = t := fun t =>
      Option.some_inj
    simp only [hstep, forall_eq', Routed, and_true, Fine]
    rcases handleMulticast_address data m with ⟨address, haddress, heq⟩ | ⟨hnone, hissued⟩
    · rw [heq, hadd, haddress]
      simp
    · rw [hnone]
      exact iff_of_true (hkept rfl hissued) (by simp)
  | addNode address =>
    have hstep : ∀ t, step m (.addNode address) = some t ↔ m.addNode address = t := fun t =>
      Option.some_inj
    simp only [hstep, forall_eq', Routed, and_true, Fine, Label.address, Option.some_inj, hadd]
  | removeNode address removeLocal =>
    refine iff_of_true ⟨fun t hs => hkept hs ?_, trivial⟩ (by simp [Fine, Label.address])
    rw [← Option.some.inj hs]
    rfl
  | reply k rep now =>
    rw [routed_reply_iff h hlength]
    refine ⟨fun hs => hs.2, fun hfine => ⟨fun t hs => hkept hs ?_, hfine⟩⟩
    have hissued := hs
    simp only [step] at hissued
    split at hissued
    · cases hvalid : helloResponse rep with
      | some valid =>
        rw [handleResponseImpl_valid hvalid] at hissued
        obtain ⟨i, -, rfl⟩ := Option.map_eq_some_iff.1 hissued
        rfl
      | none =>
        rw [handleResponseImpl_invalid hvalid] at hissued
        obtain rfl := Option.some.inj hissued
        rfl
    · cases hissued

/-- **Late replies.**  From the start of a service, in every state of a run the addresses of the
list are distinct and no id has been handed out twice, and every valid reply changes the node whose
Hello it answers, or none when that has been removed — in exactly the runs in which no valid reply
comes when no node has its id, and no new address comes when all 2³² ids have been used. -/
theorem late_replies_iff (address : Option Bytes) (as : List Label) :
    ((∀ pre t, pre <+: as → step.run (start address) pre = some t → t.Good) ∧
        step.Meets Routed (start address) as) ↔
      step.Meets Fine (start address) as := by
  have hinv := inv_start address
  have hgood : (start address).Good := by
    refine hinv.good_iff.2 ?_
    rcases address with _ | address
    · decide
    · exact Nat.le_of_ble_eq_true rfl
  rw [Machine.forall_prefix_iff, and_iff_right hgood]
  constructor
  · rintro ⟨hstates, hrouted⟩
    refine (Machine.meets_congr (P := fun m => m.Inv ∧ m.Good) (fun s a t hP hC hs => ?_)
      (fun s a hP => step_iff hP.1 hP.2 a) ⟨hinv, hgood⟩).1 (hstates.and hrouted)
    exact ⟨inv_step hP.1 hs, hC.1 t hs⟩
  · intro hfine
    have hboth := (Machine.meets_congr (P := fun m => m.Inv ∧ m.Good)
      (C := fun s a => (∀ t, step s a = some t → t.Good) ∧ Routed s a) (fun s a t hP hC hs =>
        ⟨inv_step hP.1 hs, hC.1 t hs⟩) (fun s a hP => step_iff hP.1 hP.2 a) ⟨hinv, hgood⟩).2 hfine
    exact ⟨hboth.imp fun _ _ h => h.1, hboth.imp fun _ _ h => h.2⟩

/-- A reply with all that is asked for. -/
def validReply : HelloReply where
  data := some (.dictionary [("type", ascii "rsc"), ("src", []), ("dest", []),
    ("reply", ascii "HelloResponse"), ("error_code", ascii "0"), ("ots", ascii "1")])

/-- A service advertises itself and leaves before its reply comes. -/
def byeBeforeReply : List Label :=
  [.multicast (ascii "action:advertise\r\naddress:tcp://a"),
    .multicast (ascii "action:bye\r\naddress:tcp://a"), .reply 0 validReply 2]

theorem late_replies_byeBeforeReply :
    ¬ ∀ (address : Option Bytes) (as : List Label),
      (∀ pre t, pre <+: as → step.run (start address) pre = some t → t.Good) ∧
        step.Meets Routed (start address) as := by
  intro h
  have hmeets := (h none byeBeforeReply).2
  obtain ⟨t, hstep, -⟩ := ((hmeets.2 _ rfl).2 _ rfl).1 ⟨0, 0⟩ _ _ (by decide) rfl
  have hrun : step.run (start none) byeBeforeReply = some t :=
    Machine.run_cons.2 ⟨_, rfl, Machine.run_cons.2 ⟨_, rfl, Machine.run_cons.2 ⟨t, hstep, rfl⟩⟩⟩
  have hnone : (step.run (start none) byeBeforeReply).isNone := by decide
  simp [hrun] at hnone

end Dcfpe.DPENodeManager
