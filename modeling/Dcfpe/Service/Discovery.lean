import Dcfpe.Lib.Tokens
import Dcfpe.Service.LateReplies
import Dcfpe.Service.RoundTrip
import Dcfpe.Zmq.Address

/-!
# How services find each other

A `ZServer` that starts multicasts that it is there and asks who else is; whoever is asked says that
it is there; and a `ZServer` that stops says goodbye.  What a service makes of that is its list of
nodes.

A multicast goes to all services that run.  Packets of one service to another arrive in the order in
which they were sent, and those of different services in any order.  When all have arrived, every
service has in its list the services that run, and besides them at most services that have died: a
service dies without a goodbye when a Hello is answered by a service that is not in its list any
more (`agreement`).
-/

set_option autoImplicit false

namespace Dcfpe

open AddressHelper

/-- `ZServer::server_address_`. -/
def serverAddress (ip : UInt32) : Bytes := makeZMQTCPAddress ip 5678

/-- What is multicast: by `Advertise`, `Search` and `GoodBye`. -/
inductive Multicast where
  | advertise
  | search
  | bye
  deriving DecidableEq, Repr

namespace Multicast

def action : Multicast → Bytes
  | advertise => ascii "advertise"
  | search => ascii "search"
  | bye => ascii "bye"

def text (kind : Multicast) (address : Bytes) : Bytes :=
  ascii "action:" ++ kind.action ++ ascii "\r\naddress:" ++ address ++ ascii "\n"

end Multicast

/-- Whether `HandleMulticast` makes the servers of a service advertise. -/
def searches (data : Bytes) : Bool :=
  ((tokenize data).foldl readMulticastLine ([], [])).1 = ascii "search"

/-- A `DPEService` with its `ZServer`. -/
structure RunningService where
  ip : UInt32
  nodeManager : DPENodeManager
  deriving DecidableEq, Repr

/-- A multicast on its way to one of the services. -/
structure Datagram where
  src : UInt32
  dest : UInt32
  kind : Multicast
  deriving DecidableEq, Repr

def Datagram.data (p : Datagram) : Bytes := p.kind.text (serverAddress p.src)

/-- The services that run, and the packets in the order in which they were sent. -/
structure Lan where
  services : List RunningService := []
  packets : List Datagram := []
  /-- Where a service has died, and none has been started since. -/
  dead : List UInt32 := []
  deriving DecidableEq, Repr

namespace Lan

/-- `ZServer::Multicast`.  A service gets its own multicasts too. -/
def multicast (lan : Lan) (src : UInt32) (kind : Multicast) : Lan :=
  { lan with packets := lan.packets ++ lan.services.map fun s => ⟨src, s.ip, kind⟩ }

/-- A service with a server of its own, and its node of that server. -/
def enter (lan : Lan) (ip : UInt32) : Lan :=
  let service : RunningService := ⟨ip, DPENodeManager.start (some (serverAddress ip))⟩
  { lan with services := lan.services ++ [service], dead := lan.dead.filter (· ≠ ip) }

/-- A service is no more there.  Nothing that is still on its way to it is handled. -/
def leave (lan : Lan) (ip : UInt32) : Lan :=
  { lan with
    services := lan.services.filter (·.ip ≠ ip)
    packets := lan.packets.filter (·.dest ≠ ip) }

/-- The process of a service crashes. -/
def die (lan : Lan) (ip : UInt32) : Lan := { lan.leave ip with dead := lan.dead ++ [ip] }

/-- What a service makes of a packet to it. -/
def handle (p : Datagram) (s : RunningService) : RunningService :=
  if s.ip = p.dest then { s with nodeManager := handleMulticast p.data s.nodeManager } else s

inductive Action where
  /-- `DPEService::Start` with a server. -/
  | start (ip : UInt32)
  /-- `DPEService::StopImpl`. -/
  | stop (ip : UInt32)
  /-- `DPEService::test_action`. -/
  | advertise (ip : UInt32)
  /-- `HandleMulticast` of the `k`-th packet. -/
  | deliver (k : Nat)
  /-- `DPENodeManager::HandleResponse`. -/
  | reply (i k : Nat) (rep : HelloReply) (now : Int)
  deriving DecidableEq, Repr

def step : Machine Lan Action := fun lan a =>
  match a with
  | .start ip =>
    if lan.services.all (·.ip ≠ ip) then
      some (((lan.enter ip).multicast ip .advertise).multicast ip .search)
    else none
  | .stop ip =>
    if lan.services.any (·.ip = ip) then some ((lan.multicast ip .bye).leave ip) else none
  | .advertise ip =>
    if lan.services.any (·.ip = ip) then some (lan.multicast ip .advertise) else none
  | .deliver k => do
    let p ← lan.packets[k]?
    if (lan.packets.take k).any fun q => q.src = p.src && q.dest = p.dest then none
    else
      let lan := { lan with
        services := lan.services.map (handle p), packets := lan.packets.eraseIdx k }
      some (if searches p.data then lan.multicast p.dest .advertise else lan)
  | .reply i k rep now => do
    let s ← lan.services[i]?
    let _ ← s.nodeManager.pending[k]?
    match DPENodeManager.step s.nodeManager (.reply k rep now) with
    | some nodeManager => some { lan with services := lan.services.set i { s with nodeManager } }
    -- there is no node with the id, and what is valid is written to it all the same
    | none => some (lan.die s.ip)

/-- A valid reply to a Hello comes while the list has a node with the id it is bound to. -/
def Answered (lan : Lan) : Action → Prop
  | .reply i k rep now => ∀ s, lan.services[i]? = some s →
    s.nodeManager.Fine (.reply k rep now)
  | _ => True

instance (lan : Lan) (a : Action) : Decidable (lan.Answered a) :=
  match a with
  | .reply i k rep now =>
    inferInstanceAs (Decidable (∀ s ∈ lan.services[i]?, s.nodeManager.Fine (.reply k rep now)))
  | .start _ => .isTrue trivial
  | .stop _ => .isTrue trivial
  | .advertise _ => .isTrue trivial
  | .deliver _ => .isTrue trivial

end Lan

/-! ## What is read of a multicast -/

theorem isBreak_serverAddress {ip : UInt32} {b : UInt8} (hb : b ∈ serverAddress ip) :
    isBreak b = false := by
  have hbyte := (mem_makeZMQTCPAddress hb).1
  have h13 : b ≠ 13 := by rintro rfl; exact absurd hbyte (by decide)
  have h10 : b ≠ 10 := by rintro rfl; exact absurd hbyte (by decide)
  simp [isBreak, h13, h10]

theorem serverAddress_ne_nil (ip : UInt32) : serverAddress ip ≠ [] := by
  simp [serverAddress, makeZMQTCPAddress, Decimal.bytes]

theorem serverAddress_inj {ip ip' : UInt32} (h : serverAddress ip = serverAddress ip') : ip = ip' :=
  (makeZMQTCPAddress_inj h).1

namespace Multicast

theorem tokenize_text (kind : Multicast) (ip : UInt32) :
    tokenize (kind.text (serverAddress ip)) =
      [ascii "action:" ++ kind.action, ascii "address:" ++ serverAddress ip] := by
  have hkind : ∀ b ∈ ascii "action:" ++ kind.action, isBreak b = false :=
    noBreak_of_all (by cases kind <;> decide +kernel)
  have haddress : ∀ b ∈ ascii "address:" ++ serverAddress ip, isBreak b = false := by
    intro b hb
    rcases List.mem_append.1 hb with hb | hb
    · exact noBreak_of_all (show (ascii "address:").all (!isBreak ·) = true by decide +kernel) b hb
    · exact isBreak_serverAddress hb
  have htext : kind.text (serverAddress ip) = (ascii "action:" ++ kind.action) ++ 13 :: 10 ::
      ((ascii "address:" ++ serverAddress ip) ++ 10 :: []) := by
    simp only [text, List.append_assoc]
    rfl
  have hlast : tokenize ((ascii "address:" ++ serverAddress ip) ++ 10 :: []) =
      [ascii "address:" ++ serverAddress ip] :=
    tokenize_line (by simp [ascii]) haddress []
  have hskip : ∀ rest, tokenize (10 :: rest) = tokenize rest := fun rest => by
    rw [tokenize, tokenize, List.splitOnP_cons_eq_if_modifyHead]
    rfl
  rw [htext, tokenize, List.splitOnP_append_cons_of_forall_mem hkind 13 (by decide),
    List.filter_cons_of_pos (by simp [ascii])]
  exact congrArg _ ((hskip _).trans hlast)

theorem read_text (kind : Multicast) (ip : UInt32) :
    (tokenize (kind.text (serverAddress ip))).foldl readMulticastLine ([], []) =
      (kind.action, serverAddress ip) := by
  have haction : readMulticastLine ([], []) (ascii "action:" ++ kind.action) =
      (kind.action, []) := by
    cases kind <;> decide
  have haddress : splitColon (ascii "address:" ++ serverAddress ip) =
      some (ascii "address", serverAddress ip) :=
    splitColon_append (show (58 : UInt8) ∉ ascii "address" by decide) (serverAddress ip)
  rw [tokenize_text, List.foldl_cons, List.foldl_cons, List.foldl_nil, haction, readMulticastLine,
    haddress]
  rfl

variable (m : DPENodeManager) (ip : UInt32)

theorem handle_advertise : handleMulticast (advertise.text (serverAddress ip)) m =
    m.addNode (serverAddress ip) := by
  rw [handleMulticast, read_text]
  simp [action, serverAddress_ne_nil]

theorem handle_search : handleMulticast (search.text (serverAddress ip)) m = m := by
  rw [handleMulticast, read_text]
  dsimp only [action]
  rw [if_neg (by decide), if_neg (by decide)]

theorem handle_bye : handleMulticast (bye.text (serverAddress ip)) m =
    m.removeNode (serverAddress ip) false := by
  rw [handleMulticast, read_text]
  dsimp only [action]
  rw [if_neg (by decide), if_pos rfl, if_neg (serverAddress_ne_nil ip)]

theorem searches_text (kind : Multicast) (ip : UInt32) :
    searches (kind.text (serverAddress ip)) = decide (kind = .search) := by
  rw [searches, read_text]
  change decide (kind.action = ascii "search") = _
  cases kind <;> decide

end Multicast

/-! ## What a service knows -/

namespace DPENodeManager

/-- A service that runs is in the list. -/
def Knows (m : DPENodeManager) (ip : UInt32) : Prop :=
  ∃ node ∈ m.nodeList, node.serverAddress = serverAddress ip

/-- The list of a service: it is in it as the only local one, and there are only services in it. -/
structure Owned (own : UInt32) (m : DPENodeManager) : Prop where
  inv : m.Inv
  listed : ∃ node ∈ m.nodeList, node.serverAddress = serverAddress own ∧ node.isLocal = true
  isLocal : ∀ node ∈ m.nodeList, node.isLocal = true → node.serverAddress = serverAddress own
  service : ∀ node ∈ m.nodeList, ∃ ip, node.serverAddress = serverAddress ip

variable {m : DPENodeManager} {own ip : UInt32}

theorem knows_addNode {other : UInt32} :
    (m.addNode (serverAddress other)).Knows ip ↔ m.Knows ip ∨ ip = other := by
  rw [addNode]
  split
  · next hany =>
    rw [List.any_eq_true] at hany
    obtain ⟨node, hnode, haddress⟩ := hany
    refine ⟨.inl, fun h => h.elim id ?_⟩
    rintro rfl
    exact ⟨node, hnode, of_decide_eq_true haddress⟩
  · constructor
    · rintro ⟨node, hnode, haddress⟩
      rcases List.mem_append.1 hnode with hnode | hnode
      · exact .inl ⟨node, hnode, haddress⟩
      · obtain rfl := List.mem_singleton.1 hnode
        exact .inr (serverAddress_inj haddress).symm
    · rintro (⟨node, hnode, haddress⟩ | rfl)
      · exact ⟨node, List.mem_append_left _ hnode, haddress⟩
      · exact ⟨_, List.mem_append_right _ (List.mem_singleton.2 rfl), rfl⟩

theorem Owned.addNode (h : m.Owned own) (other : UInt32) :
    (m.addNode (serverAddress other)).Owned own := by
  have hinv := h.inv.addNode (serverAddress other)
  rw [DPENodeManager.addNode] at hinv ⊢
  split at hinv
  · next hany =>
    rw [if_pos hany]
    exact h
  · next hany =>
    rw [if_neg hany]
    obtain ⟨node, hnode, haddress⟩ := h.listed
    refine ⟨hinv, ⟨node, List.mem_append_left _ hnode, haddress⟩, fun node hnode hlocal => ?_,
      fun node hnode => ?_⟩
    · rcases List.mem_append.1 hnode with hnode | hnode
      · exact h.isLocal node hnode hlocal
      · obtain rfl := List.mem_singleton.1 hnode
        simp at hlocal
    · rcases List.mem_append.1 hnode with hnode | hnode
      · exact h.service node hnode
      · obtain rfl := List.mem_singleton.1 hnode
        exact ⟨other, rfl⟩

theorem Owned.removeNode (h : m.Owned own) (other : UInt32) :
    (m.removeNode (serverAddress other) false).Owned own := by
  have hsub : (m.removeNode (serverAddress other) false).nodeList ⊆ m.nodeList :=
    fun _ hnode => (List.mem_filter.1 hnode).1
  obtain ⟨node, hnode, haddress, hlocal⟩ := h.listed
  exact ⟨h.inv.removeNode _ _,
    ⟨node, List.mem_filter.2 ⟨hnode, by simp [hlocal]⟩, haddress, hlocal⟩,
    fun node hnode => h.isLocal node (hsub hnode), fun node hnode => h.service node (hsub hnode)⟩

theorem Owned.knows_removeNode (h : m.Owned own) {other : UInt32} (hne : other ≠ own) :
    (m.removeNode (serverAddress other) false).Knows ip ↔ m.Knows ip ∧ ip ≠ other := by
  constructor
  · rintro ⟨node, hnode, haddress⟩
    obtain ⟨hmem, hkept⟩ := List.mem_filter.1 hnode
    refine ⟨⟨node, hmem, haddress⟩, ?_⟩
    rintro rfl
    have hlocal : node.isLocal = true := by simpa [haddress] using hkept
    exact hne (serverAddress_inj (haddress.symm.trans (h.isLocal node hmem hlocal)))
  · rintro ⟨⟨node, hnode, haddress⟩, hip⟩
    refine ⟨node, List.mem_filter.2 ⟨hnode, ?_⟩, haddress⟩
    have hother : node.serverAddress ≠ serverAddress other := fun heq =>
      hip (serverAddress_inj (haddress.symm.trans heq))
    simp [hother]

theorem Owned.knows_own (h : m.Owned own) : m.Knows own := by
  obtain ⟨node, hnode, haddress, -⟩ := h.listed
  exact ⟨node, hnode, haddress⟩

theorem owned_start (own : UInt32) : (start (some (serverAddress own))).Owned own := by
  refine ⟨inv_start _, ?_, ?_, ?_⟩ <;> simp [start, DPENodeManager.addNode]

theorem knows_start : (start (some (serverAddress own))).Knows ip ↔ ip = own := by
  simp only [Knows, start, DPENodeManager.addNode]
  simp
  exact ⟨fun h => (serverAddress_inj h).symm, fun h => by rw [h]⟩

end DPENodeManager

namespace DPENodeManager

/-- What a packet of service `src` does to the list of service `own`. -/
theorem Owned.handle {m : DPENodeManager} {own : UInt32} (h : m.Owned own) (kind : Multicast)
    (src : UInt32) : (handleMulticast (kind.text (serverAddress src)) m).Owned own := by
  cases kind with
  | advertise => rw [Multicast.handle_advertise]; exact h.addNode src
  | search => rwa [Multicast.handle_search]
  | bye => rw [Multicast.handle_bye]; exact h.removeNode src

theorem Owned.knows_handle {m : DPENodeManager} {own ip src : UInt32} (h : m.Owned own)
    (kind : Multicast) (hip : ip ≠ src) :
    (handleMulticast (kind.text (serverAddress src)) m).Knows ip ↔ m.Knows ip := by
  cases kind with
  | advertise => rw [Multicast.handle_advertise, knows_addNode, or_iff_left hip]
  | search => rw [Multicast.handle_search]
  | bye =>
    rw [Multicast.handle_bye]
    by_cases hown : src = own
    · subst hown
      constructor
      · rintro ⟨node, hnode, haddress⟩
        exact ⟨node, (List.mem_filter.1 hnode).1, haddress⟩
      · rintro ⟨node, hnode, haddress⟩
        refine ⟨node, List.mem_filter.2 ⟨hnode, ?_⟩, haddress⟩
        have hother : node.serverAddress ≠ serverAddress src := fun heq =>
          hip (serverAddress_inj (haddress.symm.trans heq))
        simp [hother]
    · rw [h.knows_removeNode hown, and_iff_left hip]

end DPENodeManager

/-! ## Links -/

namespace Multicast

/-- Whether a service is listed after a packet of its own, if it is or is not before. -/
def hear (known : Prop) : Multicast → Prop
  | advertise => True
  | search => known
  | bye => False

/-- The same, after several packets. -/
def heard (known : Prop) (kinds : List Multicast) : Prop := kinds.foldl hear known

theorem heard_congr {p q : Prop} (h : p ↔ q) (kinds : List Multicast) :
    heard p kinds ↔ heard q kinds := by
  rw [propext h]

theorem heard_append (known : Prop) (kinds kinds' : List Multicast) :
    heard known (kinds ++ kinds') = heard (heard known kinds) kinds' := List.foldl_append

end Multicast

open DPENodeManager in
theorem DPENodeManager.Owned.knows_src {m : DPENodeManager} {own src : UInt32} (h : m.Owned own)
    (kind : Multicast) (hsrc : src ≠ own) :
    (handleMulticast (kind.text (serverAddress src)) m).Knows src ↔ kind.hear (m.Knows src) := by
  cases kind with
  | advertise =>
    rw [Multicast.handle_advertise, knows_addNode]
    exact iff_of_true (.inr rfl) trivial
  | search => rw [Multicast.handle_search]; rfl
  | bye =>
    rw [Multicast.handle_bye, h.knows_removeNode hsrc]
    exact iff_of_false (fun hand => hand.2 rfl) id

namespace Lan

/-- What is on its way from one service to another. -/
def link (packets : List Datagram) (src dest : UInt32) : List Multicast :=
  (packets.filter fun p => p.src = src && p.dest = dest).map (·.kind)

theorem link_append (packets packets' : List Datagram) (src dest : UInt32) :
    link (packets ++ packets') src dest = link packets src dest ++ link packets' src dest := by
  simp [link]

theorem link_eq_nil (packets : List Datagram) {src dest : UInt32}
    (h : ∀ p ∈ packets, ¬(p.src = src ∧ p.dest = dest)) : link packets src dest = [] := by
  rw [link, List.map_eq_nil_iff, List.filter_eq_nil_iff]
  intro p hp
  simpa using fun hsrc => fun hdest => h p hp ⟨hsrc, hdest⟩

theorem mem_link {packets : List Datagram} {src dest : UInt32} {kind : Multicast} :
    kind ∈ link packets src dest ↔ ⟨src, dest, kind⟩ ∈ packets := by
  constructor
  · intro h
    obtain ⟨⟨src', dest', kind'⟩, hp, rfl⟩ := List.mem_map.1 h
    obtain ⟨hmem, heq⟩ := List.mem_filter.1 hp
    simp only [Bool.and_eq_true, decide_eq_true_eq] at heq
    obtain ⟨rfl, rfl⟩ := heq
    exact hmem
  · intro h
    exact List.mem_map.2 ⟨_, List.mem_filter.2 ⟨h, by simp⟩, rfl⟩

/-- The first packet of a link is taken out. -/
theorem link_eraseIdx_self {packets : List Datagram} {k : Nat} {p : Datagram}
    (hk : packets[k]? = some p)
    (hfirst : ∀ q ∈ packets.take k, ¬(q.src = p.src ∧ q.dest = p.dest)) :
    link packets p.src p.dest = p.kind :: link (packets.eraseIdx k) p.src p.dest := by
  obtain ⟨hlt, hget⟩ := List.getElem?_eq_some_iff.1 hk
  have hsplit : packets = packets.take k ++ p :: packets.drop (k + 1) := by
    rw [← hget, List.getElem_cons_drop, List.take_append_drop]
  have hp : link [p] p.src p.dest = [p.kind] := by simp [link]
  rw [List.eraseIdx_eq_take_drop_succ, link_append, link_eq_nil _ hfirst, List.nil_append]
  conv_lhs => rw [hsplit]
  rw [link_append, link_eq_nil _ hfirst, List.nil_append, ← List.singleton_append, link_append, hp]
  rfl

theorem link_eraseIdx {packets : List Datagram} {k : Nat} {p : Datagram} (hk : packets[k]? = some p)
    {src dest : UInt32} (hne : ¬(p.src = src ∧ p.dest = dest)) :
    link (packets.eraseIdx k) src dest = link packets src dest := by
  obtain ⟨hlt, hget⟩ := List.getElem?_eq_some_iff.1 hk
  have hsplit : packets = packets.take k ++ p :: packets.drop (k + 1) := by
    rw [← hget, List.getElem_cons_drop, List.take_append_drop]
  have hp : link [p] src dest = [] := link_eq_nil _ (by simpa using hne)
  rw [List.eraseIdx_eq_take_drop_succ]
  conv_rhs => rw [hsplit]
  rw [link_append, link_append, ← List.singleton_append, link_append, hp, List.nil_append]

/-- The service runs. -/
def Runs (lan : Lan) (ip : UInt32) : Prop := ip ∈ lan.services.map (·.ip)

theorem link_multicast_self {L : Lan} (hnodup : (L.services.map (·.ip)).Nodup) (src : UInt32)
    {dest : UInt32} (hdest : L.Runs dest) (kind : Multicast) :
    link (L.multicast src kind).packets src dest = link L.packets src dest ++ [kind] := by
  have hfilter : ∀ services : List RunningService, (services.map (·.ip)).Nodup →
      dest ∈ services.map (·.ip) →
      link (services.map fun s => ⟨src, s.ip, kind⟩) src dest = [kind] := by
    intro services hnodup hmem
    induction services with
    | nil => exact absurd hmem List.not_mem_nil
    | cons s services ih =>
      rw [List.map_cons, List.nodup_cons] at hnodup
      rw [List.map_cons, ← List.singleton_append, link_append]
      by_cases hs : s.ip = dest
      · rw [link_eq_nil (services.map _) fun p hp hand => ?_]
        · simp [link, hs]
        · obtain ⟨s', hs', rfl⟩ := List.mem_map.1 hp
          exact hnodup.1 (List.mem_map.2 ⟨s', hs', hand.2.trans hs.symm⟩)
      · rw [link_eq_nil [_] (by simpa using hs), List.nil_append]
        rw [List.map_cons] at hmem
        exact ih hnodup.2 ((List.mem_cons.1 hmem).resolve_left fun h => hs h.symm)
  rw [multicast, link_append, hfilter _ hnodup hdest]

theorem link_multicast {lan : Lan} {src src' : UInt32} (hne : src ≠ src') (dest : UInt32)
    (kind : Multicast) :
    link (lan.multicast src kind).packets src' dest = link lan.packets src' dest := by
  rw [multicast, link_append, link_eq_nil (lan.services.map _), List.append_nil]
  rintro p hp ⟨hsrc, -⟩
  obtain ⟨s, -, rfl⟩ := List.mem_map.1 hp
  exact hne hsrc

/-! ## The invariant -/

/-- Service `s` will have service `ip` in its list as soon as all packets of it have arrived, or it
has asked and the question is on its way. -/
def Aware (lan : Lan) (s : RunningService) (ip : UInt32) : Prop :=
  Multicast.heard (s.nodeManager.Knows ip) (link lan.packets ip s.ip) ∨
    Multicast.search ∈ link lan.packets s.ip ip

/-- What holds whatever is on its way; `Aware` for the subjects in question. -/
structure InvFor (subject : UInt32 → Prop) (lan : Lan) : Prop where
  ips : (lan.services.map (·.ip)).Nodup
  dest : ∀ p ∈ lan.packets, lan.Runs p.dest
  owned : ∀ s ∈ lan.services, s.nodeManager.Owned s.ip
  aware : ∀ s ∈ lan.services, ∀ ip, subject ip → lan.Runs ip → ip ≠ s.ip → lan.Aware s ip
  gone : ∀ s ∈ lan.services, ∀ ip, ¬lan.Runs ip → ip ∉ lan.dead →
    ¬Multicast.heard (s.nodeManager.Knows ip) (link lan.packets ip s.ip)

def Inv (lan : Lan) : Prop := lan.InvFor fun _ => True

theorem inv_empty : Inv {} where
  ips := List.nodup_nil
  dest := by simp
  owned := by simp
  aware := by simp
  gone := by simp

variable {lan lan' : Lan}

theorem runs_of_mem {s : RunningService} (hs : s ∈ lan.services) : lan.Runs s.ip :=
  List.mem_map.2 ⟨s, hs, rfl⟩

theorem dest_multicast {subject : UInt32 → Prop} (h : lan.InvFor subject) (ip : UInt32)
    (kind : Multicast) : ∀ p ∈ (lan.multicast ip kind).packets, lan.Runs p.dest := by
  intro p hp
  rcases List.mem_append.1 hp with hp | hp
  · exact h.dest p hp
  · obtain ⟨s, hs, rfl⟩ := List.mem_map.1 hp
    exact runs_of_mem hs

/-- Packets of a service change nothing between the others. -/
theorem InvFor.multicast {ip : UInt32} (h : lan.InvFor (· ≠ ip)) (hip : lan.Runs ip)
    (kind : Multicast) : (lan.multicast ip kind).InvFor (· ≠ ip) where
  ips := h.ips
  dest := dest_multicast h ip kind
  owned := h.owned
  aware s hs x hxip hx hne := by
    rw [Aware, link_multicast (Ne.symm hxip)]
    refine (h.aware s hs x hxip hx hne).imp_right fun hsearch => ?_
    rw [mem_link] at hsearch ⊢
    exact List.mem_append_left _ hsearch
  gone s hs x hx := by
    have hne : ip ≠ x := fun heq => hx (heq ▸ hip)
    rw [link_multicast hne]
    exact h.gone s hs x hx

/-- A service that advertises makes all others aware of it. -/
theorem InvFor.advertise {ip : UInt32} (h : lan.InvFor (· ≠ ip)) (hip : lan.Runs ip) :
    (lan.multicast ip .advertise).Inv := by
  have hrest := h.multicast hip .advertise
  refine ⟨hrest.ips, hrest.dest, hrest.owned, fun s hs x _ hx hne => ?_, hrest.gone⟩
  by_cases hxip : x = ip
  · subst hxip
    left
    rw [link_multicast_self h.ips x (runs_of_mem hs), Multicast.heard_append]
    trivial
  · exact hrest.aware s hs x hxip hx hne

theorem Inv.besides (h : lan.Inv) (ip : UInt32) : lan.InvFor (· ≠ ip) :=
  ⟨h.ips, h.dest, h.owned, fun s hs x _ => h.aware s hs x trivial, h.gone⟩

theorem Inv.start (h : lan.Inv) {ip : UInt32} (hip : ¬lan.Runs ip) :
    (((lan.enter ip).multicast ip .advertise).multicast ip .search).Inv := by
  have hips : ((lan.enter ip).services.map (·.ip)).Nodup := by
    rw [enter, List.map_append]
    exact h.ips.append (List.nodup_singleton _) (List.disjoint_singleton.2 hip)
  have hruns : ∀ x, (lan.enter ip).Runs x ↔ lan.Runs x ∨ x = ip := fun x => by
    simp [Runs, enter, eq_comm]
  have hself : ∀ x, (lan.enter ip).Runs x →
      link (((lan.enter ip).multicast ip .advertise).multicast ip .search).packets ip x =
        link lan.packets ip x ++ [.advertise] ++ [.search] := fun x hx => by
    have hfirst := link_multicast_self hips ip hx .advertise
    have hsecond := link_multicast_self (L := (lan.enter ip).multicast ip .advertise) hips ip hx
      .search
    rw [hsecond, hfirst]
    rfl
  have hother : ∀ {x : UInt32}, x ≠ ip → ∀ y,
      link (((lan.enter ip).multicast ip .advertise).multicast ip .search).packets x y =
        link lan.packets x y := fun hx y =>
    (link_multicast (Ne.symm hx) y .search).trans (link_multicast (Ne.symm hx) y .advertise)
  refine ⟨hips, ?_, ?_, ?_, ?_⟩
  · intro p hp
    rcases List.mem_append.1 hp with hp | hp
    · rcases List.mem_append.1 hp with hp | hp
      · exact (hruns _).2 (.inl (h.dest p hp))
      · obtain ⟨s, hs, rfl⟩ := List.mem_map.1 hp
        exact runs_of_mem hs
    · obtain ⟨s, hs, rfl⟩ := List.mem_map.1 hp
      exact List.mem_map.2 ⟨s, hs, rfl⟩
  · intro s hs
    rcases List.mem_append.1 hs with hs | hs
    · exact h.owned s hs
    · rw [List.mem_singleton.1 hs]
      exact DPENodeManager.owned_start ip
  · intro s hs x _ hx hne
    have hsruns : (lan.enter ip).Runs s.ip := List.mem_map.2 ⟨s, hs, rfl⟩
    rw [Aware]
    rcases List.mem_append.1 hs with hs | hs
    · have hsip : s.ip ≠ ip := fun heq => hip (heq ▸ runs_of_mem hs)
      by_cases hxip : x = ip
      · subst hxip
        left
        rw [hself _ hsruns, Multicast.heard_append, Multicast.heard_append]
        trivial
      · rw [hother hxip, hother hsip]
        exact h.aware s hs x trivial (((hruns x).1 hx).resolve_right hxip) hne
    · right
      rw [List.mem_singleton.1 hs, hself x hx]
      simp
  · intro s hs x hx hdead
    have hxip : x ≠ ip := fun heq => hx ((hruns x).2 (.inr heq))
    have hxruns : ¬lan.Runs x := fun hrun => hx ((hruns x).2 (.inl hrun))
    have hxdead : x ∉ lan.dead := fun hmem =>
      hdead (List.mem_filter.2 ⟨hmem, decide_eq_true hxip⟩)
    rw [hother hxip]
    rcases List.mem_append.1 hs with hs | hs
    · exact h.gone s hs x hxruns hxdead
    · have hempty : link lan.packets x ip = [] :=
        link_eq_nil _ fun p hp hand => hip (hand.2 ▸ h.dest p hp)
      rw [List.mem_singleton.1 hs, hempty]
      exact fun hknows => hxip (DPENodeManager.knows_start.1 hknows)

theorem link_filter_dest {packets : List Datagram} {ip src dest : UInt32} (hne : dest ≠ ip) :
    link (packets.filter (·.dest ≠ ip)) src dest = link packets src dest := by
  rw [link, link, List.filter_filter]
  congr 1
  refine List.filter_congr fun p _ => ?_
  by_cases hdest : p.dest = dest
  · simp [hdest, hne]
  · simp [hdest]

theorem runs_leave {ip x : UInt32} : (lan.leave ip).Runs x ↔ lan.Runs x ∧ x ≠ ip := by
  simp only [leave, Runs, List.mem_map, List.mem_filter, decide_eq_true_eq]
  constructor
  · rintro ⟨s, ⟨hs, hne⟩, rfl⟩
    exact ⟨⟨s, hs, rfl⟩, hne⟩
  · rintro ⟨⟨s, hs, rfl⟩, hne⟩
    exact ⟨s, ⟨hs, hne⟩, rfl⟩

theorem mem_leave {ip : UInt32} {s : RunningService} :
    s ∈ (lan.leave ip).services ↔ s ∈ lan.services ∧ s.ip ≠ ip := by
  simp [leave]

/-- What is left when a service is no more there.  That it is known afterwards is for its goodbye,
or its death, to say. -/
theorem InvFor.leave {ip : UInt32} (h : lan.InvFor (· ≠ ip)) {dead : List UInt32}
    (hdead : lan.dead ⊆ dead)
    (hgone : ip ∉ dead → ∀ s ∈ lan.services, s.ip ≠ ip →
      ¬Multicast.heard (s.nodeManager.Knows ip) (link lan.packets ip s.ip)) :
    Inv { lan.leave ip with dead } := by
  refine ⟨h.ips.sublist (List.filter_sublist.map _), ?_, ?_, ?_, ?_⟩
  · intro p hp
    obtain ⟨hp, hdest⟩ := List.mem_filter.1 hp
    exact runs_leave.2 ⟨h.dest p hp, of_decide_eq_true hdest⟩
  · exact fun s hs => h.owned s (mem_leave.1 hs).1
  · intro s hs x _ hx hne
    obtain ⟨hxruns, hxip⟩ := runs_leave.1 hx
    obtain ⟨hmem, hsip⟩ := mem_leave.1 hs
    exact (h.aware s hmem x hxip hxruns hne).imp
      (by rw [Lan.leave, link_filter_dest hsip]; exact id)
      (by rw [Lan.leave, link_filter_dest hxip]; exact id)
  · intro s hs x hx hxdead
    obtain ⟨hmem, hsip⟩ := mem_leave.1 hs
    rw [Lan.leave, link_filter_dest hsip]
    by_cases hxip : x = ip
    · subst hxip
      exact hgone hxdead s hmem hsip
    · exact h.gone s hmem x (fun hrun => hx (runs_leave.2 ⟨hrun, hxip⟩)) fun hold =>
        hxdead (hdead hold)

/-- A service that says goodbye is known to nobody who has heard it. -/
theorem Inv.stop (h : lan.Inv) {ip : UInt32} (hip : lan.Runs ip) :
    ((lan.multicast ip .bye).leave ip).Inv := by
  refine ((h.besides ip).multicast hip .bye).leave (List.Subset.refl _) fun _ s hs _ => ?_
  rw [link_multicast_self h.ips ip (runs_of_mem hs), Multicast.heard_append]
  exact id

theorem Inv.die (h : lan.Inv) (ip : UInt32) : (lan.die ip).Inv :=
  (h.besides ip).leave (List.subset_append_left _ _) fun hnot =>
    absurd (List.mem_append_right _ (List.mem_singleton.2 rfl)) hnot

@[simp] theorem handle_ip (p : Datagram) (s : RunningService) : (handle p s).ip = s.ip := by
  rw [handle]
  split <;> rfl

theorem map_handle_ip (p : Datagram) (services : List RunningService) :
    (services.map (handle p)).map (·.ip) = services.map (·.ip) := by
  rw [List.map_map]
  exact List.map_congr_left fun s _ => handle_ip p s

theorem handle_owned {s : RunningService} (h : s.nodeManager.Owned s.ip) (p : Datagram) :
    (handle p s).nodeManager.Owned (handle p s).ip := by
  rw [handle_ip, handle]
  split
  · exact h.handle p.kind p.src
  · exact h

/-- Handling a packet and taking it from its link go together. -/
theorem heard_handle {packets : List Datagram} {k : Nat} {p : Datagram} (hk : packets[k]? = some p)
    (hfirst : ∀ q ∈ packets.take k, ¬(q.src = p.src ∧ q.dest = p.dest)) {s : RunningService}
    (h : s.nodeManager.Owned s.ip) {x : UInt32} (hx : x ≠ s.ip) :
    Multicast.heard ((handle p s).nodeManager.Knows x) (link (packets.eraseIdx k) x s.ip) ↔
      Multicast.heard (s.nodeManager.Knows x) (link packets x s.ip) := by
  by_cases hdest : p.dest = s.ip
  · have hman : (handle p s).nodeManager = handleMulticast p.data s.nodeManager := by
      rw [handle, if_pos hdest.symm]
    rw [hman]
    by_cases hsrc : p.src = x
    · subst hsrc
      rw [← hdest, link_eraseIdx_self hk hfirst]
      exact Multicast.heard_congr (h.knows_src p.kind hx) _
    · rw [link_eraseIdx hk fun hand => hsrc hand.1]
      exact Multicast.heard_congr (h.knows_handle p.kind (Ne.symm hsrc)) _
  · rw [handle, if_neg (Ne.symm hdest), link_eraseIdx hk fun hand => hdest hand.2]

theorem Inv.deliver (h : lan.Inv) {k : Nat} {p : Datagram} (hk : lan.packets[k]? = some p)
    (hfirst : ∀ q ∈ lan.packets.take k, ¬(q.src = p.src ∧ q.dest = p.dest)) :
    InvFor (fun x => p.kind = .search → x ≠ p.dest)
      { lan with
        services := lan.services.map (handle p), packets := lan.packets.eraseIdx k } := by
  have hips := map_handle_ip p lan.services
  refine ⟨hips ▸ h.ips, ?_, ?_, ?_, ?_⟩
  · intro q hq
    rw [Runs, hips]
    exact h.dest q (List.mem_of_mem_eraseIdx hq)
  · intro s hs
    obtain ⟨s, hmem, rfl⟩ := List.mem_map.1 hs
    exact handle_owned (h.owned s hmem) p
  · intro s hs x hsubject hx hne
    obtain ⟨s, hmem, rfl⟩ := List.mem_map.1 hs
    rw [Runs, hips] at hx
    rw [handle_ip] at hne
    rw [Aware, handle_ip, heard_handle hk hfirst (h.owned s hmem) hne]
    refine (h.aware s hmem x trivial hx hne).imp_right fun hsearch => ?_
    by_cases hlink : p.src = s.ip ∧ p.dest = x
    · obtain ⟨hsrc, rfl⟩ := hlink
      rw [← hsrc, link_eraseIdx_self hk hfirst] at hsearch
      rw [← hsrc]
      exact (List.mem_cons.1 hsearch).resolve_left fun heq => hsubject heq.symm rfl
    · rwa [link_eraseIdx hk hlink]
  · intro s hs x hx hdead
    obtain ⟨s, hmem, rfl⟩ := List.mem_map.1 hs
    rw [Runs, hips] at hx
    have hne : x ≠ s.ip := fun heq => hx (heq ▸ runs_of_mem hmem)
    rw [handle_ip, heard_handle hk hfirst (h.owned s hmem) hne]
    exact h.gone s hmem x hx hdead

/-- A service whose list stays the same. -/
theorem Inv.set (h : lan.Inv) {i : Nat} {s : RunningService} (hi : lan.services[i]? = some s)
    {nodeManager : DPENodeManager} (howned : nodeManager.Owned s.ip)
    (hknows : ∀ ip, nodeManager.Knows ip ↔ s.nodeManager.Knows ip) :
    Inv { lan with services := lan.services.set i { s with nodeManager } } := by
  have hips : (lan.services.set i { s with nodeManager }).map (·.ip) =
      lan.services.map (·.ip) := by
    obtain ⟨hlt, hget⟩ := List.getElem?_eq_some_iff.1 hi
    refine List.ext_getElem? fun j => ?_
    rw [List.getElem?_map, List.getElem?_map, List.getElem?_set]
    by_cases hij : i = j
    · rw [← hij, hi]
      simp [hlt]
    · rw [if_neg hij]
  refine ⟨hips ▸ h.ips, ?_, ?_, ?_, ?_⟩
  · intro p hp
    rw [Runs, hips]
    exact h.dest p hp
  · intro t ht
    rcases List.mem_or_eq_of_mem_set ht with ht | rfl
    · exact h.owned t ht
    · exact howned
  · intro t ht x _ hx hne
    rw [Runs, hips] at hx
    rcases List.mem_or_eq_of_mem_set ht with ht | rfl
    · exact h.aware t ht x trivial hx hne
    · rw [Aware, Multicast.heard_congr (hknows x)]
      exact h.aware s (List.mem_of_getElem? hi) x trivial hx hne
  · intro t ht x hx hdead
    rw [Runs, hips] at hx
    rcases List.mem_or_eq_of_mem_set ht with ht | rfl
    · exact h.gone t ht x hx hdead
    · rw [Multicast.heard_congr (hknows x)]
      exact h.gone s (List.mem_of_getElem? hi) x hx hdead

/-- A reply to a Hello changes neither addresses nor which node is the local one. -/
theorem reply_listing {m m' : DPENodeManager} {k : Nat} {rep : HelloReply} {now : Int}
    (hstep : DPENodeManager.step m (.reply k rep now) = some m') :
    m'.nodeList.map (fun node => (node.serverAddress, node.isLocal)) =
      m.nodeList.map fun node => (node.serverAddress, node.isLocal) := by
  simp only [DPENodeManager.step] at hstep
  split at hstep
  · next callback hcallback =>
    rcases hvalid : DPENodeManager.helloResponse rep with _ | ⟨strings, ots⟩
    · rw [DPENodeManager.handleResponseImpl_invalid hvalid] at hstep
      rw [← Option.some_inj.1 hstep]
    · rw [DPENodeManager.handleResponseImpl_valid hvalid] at hstep
      obtain ⟨i, -, rfl⟩ := Option.map_eq_some_iff.1 hstep
      refine List.ext_getElem? fun j => ?_
      rw [List.getElem?_map, List.getElem?_map, List.getElem?_modify]
      rcases hj : m.nodeList[j]? with _ | node
      · rfl
      · simp only [Option.map_eq_map, Option.map_some]
        split <;> rfl
  · simp at hstep

theorem owned_reply {m m' : DPENodeManager} {own : UInt32} (h : m.Owned own) {k : Nat}
    {rep : HelloReply} {now : Int} (hstep : DPENodeManager.step m (.reply k rep now) = some m') :
    m'.Owned own ∧ ∀ ip, m'.Knows ip ↔ m.Knows ip := by
  have hlisting := reply_listing hstep
  have hmem : ∀ a, (∃ node ∈ m'.nodeList, (node.serverAddress, node.isLocal) = a) ↔
      ∃ node ∈ m.nodeList, (node.serverAddress, node.isLocal) = a := fun a => by
    rw [← List.mem_map, ← List.mem_map, hlisting]
  refine ⟨⟨DPENodeManager.inv_step h.inv hstep, ?_, fun node hnode hlocal => ?_,
    fun node hnode => ?_⟩, fun ip => ⟨?_, ?_⟩⟩
  · obtain ⟨node, hnode, haddress, hlocal⟩ := h.listed
    obtain ⟨node', hnode', heq⟩ := (hmem _).2 ⟨node, hnode, rfl⟩
    obtain ⟨haddress', hlocal'⟩ := Prod.mk.inj heq
    exact ⟨node', hnode', haddress'.trans haddress, hlocal'.trans hlocal⟩
  · obtain ⟨node', hnode', heq⟩ := (hmem _).1 ⟨node, hnode, rfl⟩
    obtain ⟨haddress', hlocal'⟩ := Prod.mk.inj heq
    exact haddress'.symm.trans (h.isLocal node' hnode' (hlocal'.trans hlocal))
  · obtain ⟨node', hnode', heq⟩ := (hmem _).1 ⟨node, hnode, rfl⟩
    obtain ⟨ip, hip⟩ := h.service node' hnode'
    exact ⟨ip, (Prod.mk.inj heq).1.symm.trans hip⟩
  · rintro ⟨node, hnode, haddress⟩
    obtain ⟨node', hnode', heq⟩ := (hmem _).1 ⟨node, hnode, rfl⟩
    exact ⟨node', hnode', (Prod.mk.inj heq).1.trans haddress⟩
  · rintro ⟨node, hnode, haddress⟩
    obtain ⟨node', hnode', heq⟩ := (hmem _).2 ⟨node, hnode, rfl⟩
    exact ⟨node', hnode', (Prod.mk.inj heq).1.trans haddress⟩

theorem runs_iff_any {ip : UInt32} : lan.services.any (·.ip = ip) = true ↔ lan.Runs ip := by
  simp [Runs]

theorem inv_step (lan : Lan) (a : Action) (lan' : Lan) (h : lan.Inv)
    (hstep : step lan a = some lan') : lan'.Inv := by
  rcases a with ip | ip | ip | k | ⟨i, k, rep, now⟩
  · simp only [step] at hstep
    split at hstep
    · next hall =>
      rw [← Option.some_inj.1 hstep]
      refine h.start fun hip => ?_
      obtain ⟨s, hs, heq⟩ := List.mem_map.1 hip
      simpa [heq] using List.all_eq_true.1 hall s hs
    · exact nomatch hstep
  · simp only [step] at hstep
    split at hstep
    · next hany =>
      rw [← Option.some_inj.1 hstep]
      exact h.stop (runs_iff_any.1 hany)
    · exact nomatch hstep
  · simp only [step] at hstep
    split at hstep
    · next hany =>
      rw [← Option.some_inj.1 hstep]
      exact (h.besides ip).advertise (runs_iff_any.1 hany)
    · exact nomatch hstep
  · obtain ⟨p, hk, hstep⟩ := Option.bind_eq_some_iff.1 hstep
    split at hstep
    · exact nomatch hstep
    · next hany =>
      have hfirst : ∀ q ∈ lan.packets.take k, ¬(q.src = p.src ∧ q.dest = p.dest) := by
        simpa using hany
      have hdelivered := h.deliver hk hfirst
      have hruns : Runs { services := lan.services.map (handle p), packets := [] } p.dest := by
        rw [Runs, map_handle_ip]
        exact h.dest p (List.mem_of_getElem? hk)
      rw [← Option.some_inj.1 hstep, Datagram.data, Multicast.searches_text]
      by_cases hsearch : p.kind = .search
      · rw [if_pos (decide_eq_true hsearch)]
        refine InvFor.advertise ⟨hdelivered.ips, hdelivered.dest, hdelivered.owned,
          fun s hs x hx => hdelivered.aware s hs x fun _ => hx, hdelivered.gone⟩ hruns
      · rw [if_neg (by simpa using hsearch)]
        exact ⟨hdelivered.ips, hdelivered.dest, hdelivered.owned,
          fun s hs x _ => hdelivered.aware s hs x fun hkind => absurd hkind hsearch,
          hdelivered.gone⟩
  · obtain ⟨s, hi, hstep⟩ := Option.bind_eq_some_iff.1 hstep
    obtain ⟨-, -, hstep⟩ := Option.bind_eq_some_iff.1 hstep
    split at hstep
    · next nodeManager hreply =>
      rw [← Option.some_inj.1 hstep]
      have howned := owned_reply (h.owned s (List.mem_of_getElem? hi)) hreply
      exact h.set hi howned.1 howned.2
    · rw [← Option.some_inj.1 hstep]
      exact h.die s.ip

/-- A service has in its list the addresses of the services that run, each once, and besides them
only addresses of services that have died. -/
structure Covers (lan : Lan) (s : RunningService) : Prop where
  nodup : (s.nodeManager.nodeList.map (·.serverAddress)).Nodup
  runs : ∀ ip, lan.Runs ip → s.nodeManager.Knows ip
  known : ∀ node ∈ s.nodeManager.nodeList, ∃ ip, node.serverAddress = serverAddress ip ∧
    (lan.Runs ip ∨ ip ∈ lan.dead)

/-- Each service has in its list the addresses of the services that run, each once, and no
others. -/
def Agree (lan : Lan) : Prop := ∀ s ∈ lan.services,
  (s.nodeManager.nodeList.map (·.serverAddress)).Perm
    (lan.services.map fun t => serverAddress t.ip)

instance (lan : Lan) : Decidable lan.Agree := by
  unfold Agree
  infer_instance

theorem Inv.covers (h : lan.Inv) (hquiet : lan.packets = []) {s : RunningService}
    (hs : s ∈ lan.services) : lan.Covers s := by
  have howned := h.owned s hs
  have hlink : ∀ src dest, link lan.packets src dest = [] := fun src dest => by
    rw [hquiet]
    rfl
  refine ⟨?_, fun ip hruns => ?_, fun node hnode => ?_⟩
  · have hnodup := howned.inv.addresses
    rwa [DPENodeManager.tags, List.map_map] at hnodup
  · by_cases hip : ip = s.ip
    · rw [hip]
      exact howned.knows_own
    · have haware := h.aware s hs ip trivial hruns hip
      rw [Aware, hlink, hlink] at haware
      exact haware.resolve_right List.not_mem_nil
  · obtain ⟨ip, hip⟩ := howned.service node hnode
    refine ⟨ip, hip, ?_⟩
    by_contra hnot
    obtain ⟨hruns, hdead⟩ := not_or.1 hnot
    refine h.gone s hs ip hruns hdead ?_
    rw [hlink]
    exact ⟨node, hnode, hip⟩

/-- When none has died, the list is that of the services that run. -/
theorem Inv.agree (h : lan.Inv) (hcovers : ∀ s ∈ lan.services, lan.Covers s)
    (hdead : lan.dead = []) : lan.Agree := by
  intro s hs
  have hservers : (lan.services.map fun t => serverAddress t.ip).Nodup := by
    have hnodup := h.ips.map fun _ _ => serverAddress_inj
    rwa [List.map_map] at hnodup
  obtain ⟨hnodup, hruns, hknown⟩ := hcovers s hs
  refine (List.perm_ext_iff_of_nodup hnodup hservers).2 fun address => ⟨fun hmem => ?_,
    fun hmem => ?_⟩
  · obtain ⟨node, hnode, rfl⟩ := List.mem_map.1 hmem
    obtain ⟨ip, hip, hrun⟩ := hknown node hnode
    obtain ⟨t, ht, hteq⟩ := List.mem_map.1 (hrun.resolve_right (hdead ▸ List.not_mem_nil))
    exact List.mem_map.2 ⟨t, ht, by rw [hteq, hip]⟩
  · obtain ⟨t, ht, rfl⟩ := List.mem_map.1 hmem
    obtain ⟨node, hnode, haddress⟩ := hruns t.ip (runs_of_mem ht)
    exact List.mem_map.2 ⟨node, hnode, haddress⟩

/-- Where every valid reply finds its node, no service dies. -/
theorem dead_step (lan : Lan) (a : Action) (lan' : Lan) (h : lan.dead = [])
    (ha : lan.Answered a) (hstep : step lan a = some lan') : lan'.dead = [] := by
  rcases a with ip | ip | ip | k | ⟨i, k, rep, now⟩
  · simp only [step] at hstep
    split at hstep
    · rw [← Option.some_inj.1 hstep]
      simp [multicast, enter, h]
    · exact nomatch hstep
  · simp only [step] at hstep
    split at hstep
    · rwa [← Option.some_inj.1 hstep]
    · exact nomatch hstep
  · simp only [step] at hstep
    split at hstep
    · rwa [← Option.some_inj.1 hstep]
    · exact nomatch hstep
  · obtain ⟨p, -, hstep⟩ := Option.bind_eq_some_iff.1 hstep
    split at hstep
    · exact nomatch hstep
    · rw [← Option.some_inj.1 hstep]
      split <;> exact h
  · obtain ⟨s, hi, hstep⟩ := Option.bind_eq_some_iff.1 hstep
    obtain ⟨callback, hk, hstep⟩ := Option.bind_eq_some_iff.1 hstep
    have hisSome := (DPENodeManager.reply_isSome_iff hk).2 (ha s hi)
    split at hstep
    · rwa [← Option.some_inj.1 hstep]
    · next hnone => simp [hnone] at hisSome

/-- **All services agree.**  Whatever services have started, stopped and advertised themselves, and
in whatever order their packets and the replies to their Hellos have arrived: when no packet is on
its way any more, each service has in its list those that run, and besides them only services that
have died.  If every valid reply has found its node, the list of each service is that of the
services that run. -/
theorem agreement {as : List Action} {lan : Lan} (hrun : step.run {} as = some lan)
    (hquiet : lan.packets = []) :
    (∀ s ∈ lan.services, lan.Covers s) ∧ (step.Meets Answered {} as → lan.Agree) := by
  have hinv := Machine.run_invariant inv_step inv_empty hrun
  have hcovers : ∀ s ∈ lan.services, lan.Covers s := fun s hs => hinv.covers hquiet hs
  exact ⟨hcovers, fun hmeets =>
    hinv.agree hcovers (Machine.run_invariant_of_meets dead_step rfl hmeets hrun)⟩

/-- Two services start, the first one answers the Hello of the second one, and then it stops. -/
def comeAndGo : List Action :=
  [Action.start 167772161, Action.start 167772162] ++ List.replicate 12 (Action.deliver 0) ++
    [Action.reply 1 1 DPENodeManager.validReply 5, Action.stop 167772161, Action.deliver 0]

theorem agreement_comeAndGo : ∃ lan, step.run {} comeAndGo = some lan ∧
    lan.services.map (·.ip) = [167772162] ∧ lan.Agree := by
  have heval : (step.run {} comeAndGo).map (fun lan => (lan.services.map (·.ip), lan.packets)) =
      some ([167772162], []) := by decide +kernel
  obtain ⟨lan, hrun, heq⟩ := Option.map_eq_some_iff.1 heval
  obtain ⟨hservices, hquiet⟩ := Prod.mk.inj heq
  have hmeets : step.Meets Answered {} comeAndGo := by decide +kernel
  exact ⟨lan, hrun, hservices, (agreement hrun hquiet).2 hmeets⟩

/-- The first of three services answers the Hello of the second one, but says goodbye before its
answer is there; the third one goes on believing in the second one. -/
example : (step.run {} (
      ([.start 167772161, .start 167772162, .start 167772163] : List Action) ++
      List.replicate 30 (Action.deliver 0) ++
      ([.stop 167772161, .deliver 0, .deliver 0,
        .reply 0 2 DPENodeManager.validReply 5] : List Action))).map
    (fun lan => (lan.services.map (·.ip), lan.packets, lan.dead, decide lan.Agree)) =
    some ([167772163], [], [167772162], false) := by
  decide +kernel

/-! ## Coming to rest -/

/-- The packets that can still be handled if nothing but packets is. -/
def load (lan : Lan) : Nat :=
  Tokens.weight (fun p : Datagram => if p.kind = .search then lan.services.length + 1 else 1)
    lan.packets

theorem weight_advertise (n : Nat) (src : UInt32) (services : List RunningService) :
    Tokens.weight (fun p : Datagram => if p.kind = .search then n + 1 else 1)
      (services.map fun s => ⟨src, s.ip, .advertise⟩) = services.length := by
  induction services with
  | nil => rfl
  | cons s services ih =>
    rw [List.map_cons, Tokens.weight_cons, ih, List.length_cons, if_neg Multicast.noConfusion]
    omega

/-- A packet that is handled brings no more than it takes. -/
theorem load_deliver {lan lan' : Lan} {k : Nat} (hstep : step lan (.deliver k) = some lan') :
    lan'.load + 1 = lan.load := by
  obtain ⟨p, hk, hstep⟩ := Option.bind_eq_some_iff.1 hstep
  split at hstep
  · exact nomatch hstep
  · have herase := Tokens.weight_eraseIdx
      (fun p : Datagram => if p.kind = .search then lan.services.length + 1 else 1) hk
    rw [← Option.some_inj.1 hstep, Datagram.data, Multicast.searches_text]
    by_cases hsearch : p.kind = .search
    · rw [if_pos hsearch] at herase
      rw [if_pos (decide_eq_true hsearch), load, load, multicast, Tokens.weight_append,
        List.length_map, weight_advertise, List.length_map]
      omega
    · rw [if_neg hsearch] at herase
      rw [if_neg (by simpa using hsearch), load, load, List.length_map]
      exact herase

/-- **The services come to agree.**  From any state, handling packets in whatever order comes to an
end, after no more packets than `load`; and when it does, each service has in its list those that
run, besides them only services that have died, and none if every valid reply has found its node. -/
theorem settles {as : List Action} {lan : Lan} (hrun : step.run {} as = some lan) {ks : List Nat}
    {lan' : Lan} (hdeliver : step.run lan (ks.map .deliver) = some lan') :
    ks.length ≤ lan.load ∧
      ((∀ s ∈ lan'.services, lan'.Covers s) ∧ (step.Meets Answered {} as → lan'.Agree) ∨
        ∃ lan'', step lan' (.deliver 0) = some lan'') := by
  have h : lan.Inv := Machine.run_invariant inv_step inv_empty hrun
  have h' : lan'.Inv := Machine.run_invariant inv_step h hdeliver
  constructor
  · have hlen := Machine.run_length_le (P := fun _ => True)
      (C := fun _ a => ∃ k, a = .deliver k) load
      (fun s a t _ ⟨k, hk⟩ ht => ⟨trivial, by
        have := load_deliver (hk ▸ ht)
        omega⟩) trivial
      (Machine.meets_labels (fun a ha => by
        obtain ⟨k, -, rfl⟩ := List.mem_map.1 ha
        exact ⟨k, rfl⟩) lan) hdeliver
    rw [List.length_map] at hlen
    omega
  · rcases hpackets : lan'.packets with _ | ⟨p, packets⟩
    · have hcovers : ∀ s ∈ lan'.services, lan'.Covers s := fun s hs => h'.covers hpackets hs
      refine .inl ⟨hcovers, fun hmeets => h'.agree hcovers ?_⟩
      have hdead : lan.dead = [] := Machine.run_invariant_of_meets dead_step rfl hmeets hrun
      -- packets kill nobody
      refine Machine.run_invariant_of_meets dead_step hdead ?_ hdeliver
      refine (Machine.meets_labels (L := fun a => ∀ lan, Answered lan a) (fun a ha => ?_) lan).imp
        fun s a ha => ha s
      obtain ⟨k, -, rfl⟩ := List.mem_map.1 ha
      exact fun _ => trivial
    · right
      simp [step, hpackets]

theorem settles_comeAndGo : ∃ lan lan', step.run {} (comeAndGo.take 2) = some lan ∧
    step.run lan ((List.replicate 12 0).map .deliver) = some lan' ∧ 12 ≤ lan.load ∧
      lan'.Agree := by
  have heval : (step.run {} (comeAndGo.take 14)).map (·.packets) = some [] := by decide +kernel
  obtain ⟨lan', hrun, hquiet⟩ := Option.map_eq_some_iff.1 heval
  have hsplit : comeAndGo.take 14 = comeAndGo.take 2 ++ (List.replicate 12 0).map .deliver := rfl
  rw [hsplit] at hrun
  obtain ⟨lan, hlan, hlan'⟩ := Machine.run_append.1 hrun
  obtain ⟨hle, hsettled⟩ := settles hlan hlan'
  refine ⟨lan, lan', hlan, hlan', hle, ?_⟩
  rcases hsettled with ⟨-, hagree⟩ | ⟨lan'', hstep⟩
  · exact hagree (by decide +kernel)
  · simp [step, hquiet] at hstep

end Lan

end Dcfpe
