import Dcfpe.Shell.LocalServerNode
import Dcfpe.Shell.Session
import Mathlib.Data.List.Induction

/-!
# The files of a command

`fs` and `fst` take files to the other machine, `fg` and `fgt` fetch them.  Names and contents
travel in one flat list, which is filled on one machine and written to its disk on the other.  A
transfer is one such command from the line to the report: its two nodes, and the disks of their
machines.

A listed file arrives unless a later one of the list goes to the same file with something else in it
(`transfer_contents_iff`); for `fs` and `fg` that only takes two paths with the same base name.
-/

set_option autoImplicit false

namespace Dcfpe.Rs

universe u v

/-- The disk of a machine, whose files are a type of its own.  Writing is granted or not by the file
and the contents: a command in which a write fails reports no success. -/
structure Disk (φ : Type u) where
  /-- The file `MakeAbsoluteFilePath` of an argument leads to. -/
  absolute : Text → φ
  /-- The file its base name leads to, in the directory the process runs in. -/
  baseName : Text → φ
  pathExists : φ → Bool
  accepts : φ → Text → Bool
  contents : φ → Option Text

namespace Disk

variable {φ : Type u} [DecidableEq φ] (d : Disk φ)

def put (file : φ) (data : Text) : Disk φ :=
  { d with contents := fun f => if f = file then some data else d.contents f }

/-- Where a file of a command is written. -/
def destination (cmd arg : Text) : φ :=
  if cmd = "fs".toList ∨ cmd = "fg".toList then d.baseName arg else d.absolute arg

/-- What the local node is told of its files in a command. -/
def files (cmd : Text) : Files where
  pathExists path := d.pathExists (d.absolute path)
  read path := d.contents (d.absolute path)
  write path data := d.accepts (d.destination cmd path) data

def remoteFiles (cmd : Text) : RemoteFiles where
  read path := d.contents (d.absolute path)
  write path data := d.accepts (d.destination cmd path) data

/-- The loops that write the files of a flat list; they stop at a write that fails. -/
def writeAll (cmd : Text) (d : Disk φ) : List Text → Disk φ
  | path :: data :: args =>
    if d.accepts (d.destination cmd path) data then
      writeAll cmd (d.put (d.destination cmd path) data) args
    else d
  | _ => d

/-- What `handleFileOperation` writes. -/
def takeRequest (r : RemoteServerNode) (req : Request) : Disk φ :=
  match req.fileOperation with
  | some detail =>
    if req.sessionId = r.sessionId ∧ (detail.cmd = "fs".toList ∨ detail.cmd = "fst".toList) then
      d.writeAll detail.cmd detail.args
    else d
  | none => d

/-- What `handleFileOperationResponse` writes. -/
def takeReply (reply : Response) : Callback → Disk φ
  | .handleFileOperationResponse req =>
    if reply.errorCode = 0 ∧ (req.cmd = "fg".toList ∨ req.cmd = "fgt".toList) then
      d.writeAll req.cmd (reply.fileOperation.getD {}).args
    else d
  | _ => d

end Disk

/-- What becomes of the request and its reply on their way. -/
inductive Passage where
  | requestLost
  | replyLost
  | delivered
  deriving DecidableEq, Repr

/-- The two disks after a command, and what the local node has done. -/
structure Transferred (φ : Type u) (ψ : Type v) where
  here : Disk φ
  there : Disk ψ
  deeds : List Deed

variable {φ : Type u} {ψ : Type v} [DecidableEq φ] [DecidableEq ψ]

/-- The command goes to the remote node, which serves it, and its reply comes back. -/
def exchange (here : Disk φ) (there : Disk ψ) (n : LocalServerNode) (r : RemoteServerNode)
    (passage : Passage) (cmd : Text) (req : Request) (callback : Callback) : Transferred φ ψ :=
  match passage with
  | .requestLost => ⟨here, there, (n.runCallback (here.files cmd) .timeOut callback).2⟩
  | .replyLost =>
    ⟨here, there.takeRequest r req, (n.runCallback (here.files cmd) .timeOut callback).2⟩
  | .delivered =>
    let reply := (r.handleRequest (there.remoteFiles cmd) true 0 req (prepareReply req)).1
    ⟨here.takeReply reply callback, there.takeRequest r req,
      (n.runCallback (here.files cmd) (.ok reply) callback).2⟩

/-- A command line of one of the four commands. -/
def transfer (here : Disk φ) (there : Disk ψ) (n : LocalServerNode) (r : RemoteServerNode)
    (passage : Passage) (line cmd : Text) (args : List Text) : Transferred φ ψ :=
  match n.handleInternalCommand (here.files cmd) line cmd args with
  | some (n, [.send _ req callback _]) => exchange here there n r passage cmd req callback
  | some (_, deeds) => ⟨here, there, deeds⟩
  | none => ⟨here, there, []⟩

/-! ## The list -/

/-- The arguments of `fst` and `fgt` in twos. -/
def pairs : List Text → List (Text × Text)
  | path :: name :: args => (path, name) :: pairs args
  | _ => []

/-- The files of a command: the path of each, and what it is to be called on the other side. -/
def items (cmd : Text) (args : List Text) : List (Text × Text) :=
  if cmd = "fs".toList ∨ cmd = "fg".toList then args.map fun path => (path, path) else pairs args

/-- The flat list of some files. -/
def flat (read : Text → Option Text) : List (Text × Text) → Option (List Text)
  | [] => some []
  | (path, name) :: items => do
    let data ← read path
    let rest ← flat read items
    some (name :: data :: rest)

theorem local_readFiles_eq (files : Files) (args : List Text) :
    LocalServerNode.readFiles files args = flat files.read (args.map fun path => (path, path)) := by
  induction args with
  | nil => rfl
  | cons path args ih => rw [LocalServerNode.readFiles, ih]; rfl

theorem local_readFilesTo_eq (files : Files) (args : List Text) :
    LocalServerNode.readFilesTo files args = flat files.read (pairs args) := by
  induction args using List.twoStepInduction with
  | nil => rfl
  | singleton path => rfl
  | cons_cons path name args ih =>
    rw [LocalServerNode.readFilesTo, ih]
    rfl

theorem remote_readFiles_eq (files : RemoteFiles) (args : List Text) :
    RemoteServerNode.readFiles files args =
      flat files.read (args.map fun path => (path, path)) := by
  induction args with
  | nil => rfl
  | cons path args ih => rw [RemoteServerNode.readFiles, ih]; rfl

theorem remote_readFilesTo_eq (files : RemoteFiles) (args : List Text) :
    RemoteServerNode.readFilesTo files args = flat files.read (pairs args) := by
  induction args using List.twoStepInduction with
  | nil => rfl
  | singleton path => rfl
  | cons_cons path name args ih =>
    rw [RemoteServerNode.readFilesTo, ih]
    rfl

/-! ## What is written -/

namespace Disk

/-- Whether all files of a flat list can be written. -/
def grants (cmd : Text) (d : Disk φ) : List Text → Bool
  | path :: data :: args => d.accepts (d.destination cmd path) data && grants cmd d args
  | _ => true

omit [DecidableEq φ] in
theorem local_writeFiles_eq (cmd : Text) (d : Disk φ) (args : List Text) :
    LocalServerNode.writeFiles (d.files cmd) args = d.grants cmd args := by
  induction args using List.twoStepInduction with
  | nil => rfl
  | singleton path => rfl
  | cons_cons path data args ih =>
    rw [LocalServerNode.writeFiles, grants, ih]
    rfl

omit [DecidableEq φ] in
theorem remote_writeFiles_eq (cmd : Text) (d : Disk φ) (args : List Text) :
    RemoteServerNode.writeFiles (d.remoteFiles cmd) args = d.grants cmd args := by
  induction args using List.twoStepInduction with
  | nil => rfl
  | singleton path => rfl
  | cons_cons path data args ih =>
    rw [RemoteServerNode.writeFiles, grants, ih]
    rfl

theorem grants_put (cmd : Text) (d : Disk φ) (file : φ) (data : Text) (args : List Text) :
    (d.put file data).grants cmd args = d.grants cmd args := by
  induction args using List.twoStepInduction with
  | nil => rfl
  | singleton path => rfl
  | cons_cons path data' args ih =>
    rw [grants, grants, ih]
    rfl

variable {cmd : Text} {read : Text → Option Text}

/-- The head of a list is written, and then the rest. -/
theorem writeAll_cons {d : Disk φ} {path name : Text} {items : List (Text × Text)} {l : List Text}
    (hflat : flat read ((path, name) :: items) = some l) (hgrants : d.grants cmd l = true) :
    ∃ data rest, read path = some data ∧ flat read items = some rest ∧
      (d.put (d.destination cmd name) data).grants cmd rest = true ∧
      d.writeAll cmd l = (d.put (d.destination cmd name) data).writeAll cmd rest := by
  simp only [flat, Option.bind_eq_bind, Option.bind_eq_some_iff] at hflat
  obtain ⟨data, hdata, rest, hrest, hl⟩ := hflat
  obtain rfl := Option.some.inj hl
  rw [grants, Bool.and_eq_true] at hgrants
  exact ⟨data, rest, hdata, hrest, by rw [grants_put, hgrants.2],
    by rw [writeAll, if_pos hgrants.1]⟩

/-- What no file of the list goes to stays as it is. -/
theorem writeAll_frame {items : List (Text × Text)} {d : Disk φ} {l : List Text}
    (hflat : flat read items = some l) (hgrants : d.grants cmd l = true) {file : φ}
    (hfile : ∀ item ∈ items, d.destination cmd item.2 ≠ file) :
    (d.writeAll cmd l).contents file = d.contents file := by
  induction items generalizing d l with
  | nil =>
    obtain rfl := Option.some.inj hflat
    rfl
  | cons item items ih =>
    obtain ⟨data, rest, -, hrest, hgrants', hwrite⟩ := writeAll_cons hflat hgrants
    rw [hwrite, ih hrest hgrants' fun item' hitem' =>
      hfile item' (List.mem_cons_of_mem item hitem')]
    exact if_neg (Ne.symm (hfile item List.mem_cons_self))

/-- Every file of the list is on the disk just when those that go to one place are the same. -/
theorem writeAll_contents_iff {items : List (Text × Text)} {d : Disk φ} {l : List Text}
    (hflat : flat read items = some l) (hgrants : d.grants cmd l = true) :
    (∀ item ∈ items, (d.writeAll cmd l).contents (d.destination cmd item.2) = read item.1) ↔
      ∀ a ∈ items, ∀ b ∈ items, d.destination cmd a.2 = d.destination cmd b.2 →
        read a.1 = read b.1 := by
  constructor
  · intro h a ha b hb hab
    rw [← h a ha, hab, h b hb]
  · intro h
    induction items generalizing d l with
    | nil => simp
    | cons item items ih =>
      obtain ⟨data, rest, hdata, hrest, hgrants', hwrite⟩ := writeAll_cons hflat hgrants
      rw [hwrite]
      have hitems := ih hrest hgrants' fun a ha b hb =>
        h a (List.mem_cons_of_mem item ha) b (List.mem_cons_of_mem item hb)
      rw [List.forall_mem_cons]
      refine ⟨?_, hitems⟩
      by_cases hlater : ∃ b ∈ items, d.destination cmd b.2 = d.destination cmd item.2
      · -- a later file goes to the same place, with the same contents
        obtain ⟨b, hb, hdest⟩ := hlater
        rw [h item List.mem_cons_self b (List.mem_cons_of_mem item hb) hdest.symm, ← hitems b hb]
        exact congrArg _ hdest.symm
      · simp only [not_exists, not_and] at hlater
        rw [writeAll_frame hrest hgrants' hlater, hdata]
        exact if_pos rfl

end Disk

/-! ## The command -/

/-- What the machine that has the files reads of a path. -/
def Disk.read (d : Disk φ) (path : Text) : Option Text := d.contents (d.absolute path)

theorem sendFiles_spec (files : Files) (n : LocalServerNode) {cmd : Text}
    (hcmd : cmd = "fs".toList ∨ cmd = "fst".toList) (args : List Text) :
    n.sendFiles files cmd args = (n, [.notify .failed]) ∨
      ∃ l, flat files.read (items cmd args) = some l ∧
        n.sendFiles files cmd args = n.sendFileOperation { cmd := cmd, args := l } := by
  rw [LocalServerNode.sendFiles]
  split
  · exact Or.inl rfl
  · split
    · exact Or.inl rfl
    · split
      · next hfs =>
        have hitems : items cmd args = args.map fun path => (path, path) := if_pos (Or.inl hfs)
        rw [local_readFiles_eq, hitems]
        split
        · split
          · next l hl => exact Or.inr ⟨l, hl, rfl⟩
          · exact Or.inl rfl
        · exact Or.inl rfl
      · next hfs =>
        obtain rfl := hcmd.resolve_left hfs
        have hitems : items "fst".toList args = pairs args := if_neg (by decide)
        rw [local_readFilesTo_eq, hitems]
        split
        · split
          · next l hl => exact Or.inr ⟨l, hl, rfl⟩
          · exact Or.inl rfl
        · exact Or.inl rfl

theorem getFiles_spec (n : LocalServerNode) (cmd : Text) (args : List Text) :
    n.getFiles cmd args = (n, [.notify .failed]) ∨
      n.getFiles cmd args = n.sendFileOperation { cmd := cmd, args := args } := by
  rw [LocalServerNode.getFiles]
  split
  · exact Or.inl rfl
  · split
    · exact Or.inl rfl
    · exact Or.inr rfl

/-- The request of a file operation. -/
def fileRequest (n : LocalServerNode) (detail : FileOperationRequest) : Request :=
  { sessionId := n.sessionId, fileOperation := some detail, requestId := n.nextRequestId + 1 }

theorem succeed_not_mem {status : ServerStatus} (h : status ≠ .succeed) :
    Deed.notify .succeed ∉ [Deed.notify status] := by
  simpa using Ne.symm h

/-- A success is reported of an exchange whose reply is one. -/
theorem exchange_succeed {here : Disk φ} {there : Disk ψ} {n : LocalServerNode}
    {r : RemoteServerNode} {passage : Passage} {cmd : Text} {req : Request}
    {detail : FileOperationRequest}
    (h : Deed.notify .succeed ∈ (exchange here there n r passage cmd req
      (.handleFileOperationResponse detail)).deeds) :
    passage = .delivered ∧
      (r.handleRequest (there.remoteFiles cmd) true 0 req (prepareReply req)).1.errorCode = 0 := by
  have hlost := succeed_not_mem (show ServerStatus.timeOut ≠ .succeed by decide)
  cases passage with
  | requestLost => exact absurd h hlost
  | replyLost => exact absurd h hlost
  | delivered =>
    refine ⟨rfl, ?_⟩
    by_contra hne
    simp only [exchange, LocalServerNode.runCallback, LocalServerNode.handleFileOperationResponse,
      ne_eq, hne, not_false_eq_true, if_true] at h
    exact absurd h (by decide)

theorem handleRequest_fileRequest (r : RemoteServerNode) (files : RemoteFiles) (n : LocalServerNode)
    (detail : FileOperationRequest) :
    (r.handleRequest files true 0 (fileRequest n detail) (prepareReply (fileRequest n detail))).1 =
      let reply : Response :=
        { sessionId := r.sessionId, errorCode := -1, requestId := n.nextRequestId + 1 }
      if n.sessionId ≠ r.sessionId then reply
      else RemoteServerNode.handleFileOperation files detail reply := by
  rw [RemoteServerNode.handleRequest]
  by_cases h : n.sessionId = r.sessionId
  · simp [fileRequest, prepareReply, h]
  · simp [fileRequest, prepareReply, h]

/-- A successful `fs` or `fst` has written the files it was sent. -/
theorem exchange_sendFiles {here : Disk φ} {there : Disk ψ} {n n' : LocalServerNode}
    {r : RemoteServerNode} {passage : Passage} {cmd : Text}
    (hcmd : cmd = "fs".toList ∨ cmd = "fst".toList) {l : List Text}
    (h : Deed.notify .succeed ∈ (exchange here there n' r passage cmd
      (fileRequest n { cmd := cmd, args := l })
      (.handleFileOperationResponse { cmd := cmd, args := l })).deeds) :
    there.grants cmd l = true ∧
      (exchange here there n' r passage cmd (fileRequest n { cmd := cmd, args := l })
        (.handleFileOperationResponse { cmd := cmd, args := l })).there = there.writeAll cmd l ∧
      (exchange here there n' r passage cmd (fileRequest n { cmd := cmd, args := l })
        (.handleFileOperationResponse { cmd := cmd, args := l })).here = here := by
  obtain ⟨rfl, hcode⟩ := exchange_succeed h
  rw [handleRequest_fileRequest] at hcode
  split at hcode
  · simp at hcode
  · next hsession =>
    simp only [RemoteServerNode.handleFileOperation, hcmd, if_true,
      Disk.remote_writeFiles_eq] at hcode
    split at hcode
    · next hgrants =>
      have hfetch : ¬(cmd = "fg".toList ∨ cmd = "fgt".toList) := by
        rcases hcmd with rfl | rfl <;> decide
      refine ⟨hgrants, ?_, ?_⟩
      · simp only [exchange, Disk.takeRequest, fileRequest]
        exact if_pos ⟨not_not.1 hsession, hcmd⟩
      · simp only [exchange, Disk.takeReply]
        exact if_neg fun hreply => hfetch hreply.2
    · simp at hcode

/-- A successful `fg` or `fgt` has written the files that came back. -/
theorem exchange_getFiles {here : Disk φ} {there : Disk ψ} {n n' : LocalServerNode}
    {r : RemoteServerNode} {passage : Passage} {cmd : Text}
    (hcmd : cmd = "fg".toList ∨ cmd = "fgt".toList) {args : List Text}
    (h : Deed.notify .succeed ∈ (exchange here there n' r passage cmd
      (fileRequest n { cmd := cmd, args := args })
      (.handleFileOperationResponse { cmd := cmd, args := args })).deeds) :
    ∃ l, flat there.read (items cmd args) = some l ∧ here.grants cmd l = true ∧
      (exchange here there n' r passage cmd (fileRequest n { cmd := cmd, args := args })
        (.handleFileOperationResponse { cmd := cmd, args := args })).here = here.writeAll cmd l ∧
      (exchange here there n' r passage cmd (fileRequest n { cmd := cmd, args := args })
        (.handleFileOperationResponse { cmd := cmd, args := args })).there = there := by
  obtain ⟨rfl, hcode⟩ := exchange_succeed h
  have hsend : ¬(cmd = "fs".toList ∨ cmd = "fst".toList) := by
    rcases hcmd with rfl | rfl <;> decide
  have hmkdir : ¬(cmd = "fs".toList ∨ cmd = "fst".toList ∨ cmd = "mkdir".toList) := by
    rcases hcmd with rfl | rfl <;> decide
  have hread : (if cmd = "fg".toList then
      RemoteServerNode.readFiles (there.remoteFiles cmd) args
      else RemoteServerNode.readFilesTo (there.remoteFiles cmd) args) =
      flat there.read (items cmd args) := by
    rw [remote_readFiles_eq, remote_readFilesTo_eq]
    rcases hcmd with rfl | rfl
    · rfl
    · rfl
  have hthere : there.takeRequest r (fileRequest n { cmd := cmd, args := args }) = there := by
    simp only [Disk.takeRequest, fileRequest]
    exact if_neg fun hsent => hsend hsent.2
  have hreply := handleRequest_fileRequest r (there.remoteFiles cmd) n { cmd := cmd, args := args }
  rw [hreply] at hcode
  split at hcode
  · simp at hcode
  · next hsession =>
    rw [if_neg hsession] at hreply
    simp only [RemoteServerNode.handleFileOperation, hsend, if_false, hcmd, if_true,
      hread] at hcode hreply
    split at hcode
    · next l hl =>
      rw [hl] at hreply
      simp only [exchange, hreply, hthere, Disk.takeReply, hcmd, LocalServerNode.runCallback,
        LocalServerNode.handleFileOperationResponse, ne_eq, not_true_eq_false, if_false, hmkdir,
        and_self, if_true, Option.getD_some, Disk.local_writeFiles_eq] at h ⊢
      split at h
      · next hgrants => exact ⟨l, hl, hgrants, rfl, trivial⟩
      · exact absurd h (succeed_not_mem (by decide))
    · simp at hcode

/-- A command line that fails at once reports no success, -/
theorem transfer_failed {here : Disk φ} {there : Disk ψ} {n n' : LocalServerNode}
    {r : RemoteServerNode} {passage : Passage} {line cmd : Text} {args : List Text}
    (h : n.handleInternalCommand (here.files cmd) line cmd args = some (n', [.notify .failed])) :
    Deed.notify .succeed ∉ (transfer here there n r passage line cmd args).deeds := by
  rw [transfer, h]
  exact succeed_not_mem (by decide)

/-- and any other is an exchange. -/
theorem transfer_exchange {here : Disk φ} {there : Disk ψ} {n : LocalServerNode}
    {r : RemoteServerNode} {passage : Passage} {line cmd : Text} {args l : List Text}
    (h : n.handleInternalCommand (here.files cmd) line cmd args =
      some (n.sendFileOperation { cmd := cmd, args := l })) :
    transfer here there n r passage line cmd args =
      exchange here there { n with nextRequestId := n.nextRequestId + 1 } r passage cmd
        (fileRequest n { cmd := cmd, args := l })
        (.handleFileOperationResponse { cmd := cmd, args := l }) := by
  rw [transfer, h]
  rfl

theorem transfer_sent {here : Disk φ} {there : Disk ψ} {n : LocalServerNode} {r : RemoteServerNode}
    {passage : Passage} {line cmd : Text} {args : List Text}
    (h : Deed.notify .succeed ∈ (transfer here there n r passage line cmd args).deeds)
    (hcmd : cmd = "fs".toList ∨ cmd = "fst".toList) :
    ∃ l, flat here.read (items cmd args) = some l ∧ there.grants cmd l = true ∧
      (transfer here there n r passage line cmd args).there = there.writeAll cmd l ∧
      (transfer here there n r passage line cmd args).here = here := by
  have hinternal : n.handleInternalCommand (here.files cmd) line cmd args =
      some (n.sendFiles (here.files cmd) cmd args) := by
    rcases hcmd with rfl | rfl
    · rfl
    · rfl
  rcases sendFiles_spec (here.files cmd) n hcmd args with hfailed | ⟨l, hl, hsent⟩
  · rw [hfailed] at hinternal
    exact absurd h (transfer_failed hinternal)
  · rw [hsent] at hinternal
    rw [transfer_exchange hinternal] at h ⊢
    exact ⟨l, hl, exchange_sendFiles hcmd h⟩

theorem transfer_fetched {here : Disk φ} {there : Disk ψ} {n : LocalServerNode}
    {r : RemoteServerNode} {passage : Passage} {line cmd : Text} {args : List Text}
    (h : Deed.notify .succeed ∈ (transfer here there n r passage line cmd args).deeds)
    (hcmd : cmd = "fg".toList ∨ cmd = "fgt".toList) :
    ∃ l, flat there.read (items cmd args) = some l ∧ here.grants cmd l = true ∧
      (transfer here there n r passage line cmd args).here = here.writeAll cmd l ∧
      (transfer here there n r passage line cmd args).there = there := by
  have hinternal : n.handleInternalCommand (here.files cmd) line cmd args =
      some (n.getFiles cmd args) := by
    rcases hcmd with rfl | rfl
    · rfl
    · rfl
  rcases getFiles_spec n cmd args with hfailed | hsent
  · rw [hfailed] at hinternal
    exact absurd h (transfer_failed hinternal)
  · rw [hsent] at hinternal
    rw [transfer_exchange hinternal] at h ⊢
    exact exchange_getFiles hcmd h

/-- **Nothing is lost.**  When a command of files reports a success, every file it names is on the
other side, as it is on its own, just when those it takes to one place have the same contents. -/
theorem transfer_contents_iff (here : Disk φ) (there : Disk ψ) (n : LocalServerNode)
    (r : RemoteServerNode) (passage : Passage) (line cmd : Text) (args : List Text)
    (h : Deed.notify .succeed ∈ (transfer here there n r passage line cmd args).deeds) :
    (cmd = "fs".toList ∨ cmd = "fst".toList →
      ((∀ item ∈ items cmd args,
        (transfer here there n r passage line cmd args).there.contents
            (there.destination cmd item.2) =
          (transfer here there n r passage line cmd args).here.read item.1) ↔
        ∀ a ∈ items cmd args, ∀ b ∈ items cmd args,
          there.destination cmd a.2 = there.destination cmd b.2 → here.read a.1 = here.read b.1)) ∧
    (cmd = "fg".toList ∨ cmd = "fgt".toList →
      ((∀ item ∈ items cmd args,
        (transfer here there n r passage line cmd args).here.contents
            (here.destination cmd item.2) =
          (transfer here there n r passage line cmd args).there.read item.1) ↔
        ∀ a ∈ items cmd args, ∀ b ∈ items cmd args,
          here.destination cmd a.2 = here.destination cmd b.2 →
            there.read a.1 = there.read b.1)) := by
  constructor
  · intro hcmd
    obtain ⟨l, hl, hgrants, hthere, hhere⟩ := transfer_sent h hcmd
    rw [hthere, hhere]
    exact Disk.writeAll_contents_iff hl hgrants
  · intro hcmd
    obtain ⟨l, hl, hgrants, hhere, hthere⟩ := transfer_fetched h hcmd
    rw [hhere, hthere]
    exact Disk.writeAll_contents_iff hl hgrants

/-- A disk whose files are the paths, with some of them on it. -/
def Disk.ofPaths (contents : List (Text × Text)) : Disk Text where
  absolute path := path
  baseName path := (path.reverse.takeWhile (· ≠ '\\')).reverse
  pathExists path := (contents.lookup path).isSome
  accepts _ _ := true
  contents path := contents.lookup path

/-- A local node and a remote node of one session. -/
def someNode : LocalServerNode := { sessionId := 1, msgSender := some "tcp" }

def someRemote : RemoteServerNode := { address := "tcp", sessionId := 1 }

/-- `fs a b`: the second file is on the other side. -/
theorem transfer_contents_iff_twoFiles :
    (transfer (Disk.ofPaths [(['a'], ['1']), (['b'], ['2'])]) (Disk.ofPaths []) someNode someRemote
      .delivered "fs a b".toList "fs".toList [['a'], ['b']]).there.contents ['b'] = some ['2'] :=
  (((transfer_contents_iff _ _ someNode someRemote .delivered "fs a b".toList "fs".toList
    [['a'], ['b']] (by decide)).1 (Or.inl rfl)).2 (by decide) (['b'], ['b']) (by decide)).trans
      (by decide)

/-- `fs p\\x q\\x`: the two files have the same base name. -/
theorem transfer_sameBaseName :
    ¬ ∀ (here there : Disk Text) (n : LocalServerNode) (r : RemoteServerNode) (passage : Passage)
      (line : Text) (args : List Text), args.Nodup →
      Deed.notify .succeed ∈ (transfer here there n r passage line "fs".toList args).deeds →
      ∀ item ∈ items "fs".toList args,
        (transfer here there n r passage line "fs".toList args).there.contents
            (there.destination "fs".toList item.2) =
          (transfer here there n r passage line "fs".toList args).here.read item.1 := by
  intro h
  exact absurd (h (Disk.ofPaths [("p\\x".toList, ['1']), ("q\\x".toList, ['2'])])
    (Disk.ofPaths []) someNode someRemote .delivered "fs p\\x q\\x".toList
    ["p\\x".toList, "q\\x".toList] (by decide) (by decide)) (by decide)

end Dcfpe.Rs
