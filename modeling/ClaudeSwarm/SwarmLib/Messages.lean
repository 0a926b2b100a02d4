import ClaudeSwarm.Data.CalendarOrder
import ClaudeSwarm.Data.Table
import ClaudeSwarm.Interleave.Outline
import ClaudeSwarm.Python
import Mathlib.Data.List.Infix
import Mathlib.Data.List.Sort

/-!
# Messages in files

Model of `send_message`, `broadcast_message`, `read_inbox` and `archive_message` of `src/swarm_lib.py`.
A message is a file whose name has the second in which it was sent and its sender; the archive has
the messages of all inboxes in one directory. A message is written to a `.tmp` file in one step, which
is renamed in another; both replace a file of the same name. A file is read back as it was written.
Each host reads its own clock.

* `fileName_inj`: two messages with one file name were sent in the same second by the same sender.
* `Distinct`: no message meets another of its second and sender on its way.
* **`conserved_of_distinct`**: in runs with that no message is lost.
* `message_overwritten`: two messages in one second.
-/

namespace ClaudeSwarm.Messages

open Interleave Data
open Python (PyError)

/-! ## Messages and files -/

/-- A reading of a clock, in seconds since the epoch, up to the year 9999. -/
abbrev Second := Fin 253402300800

/-- The name of a host, or another that is one part of a path. -/
structure Name where
  text : String
  plain : text ∉ ["", ".", ".."] ∧ '/' ∉ text.toList

/-- A message; `second` is the time in the name of its file. -/
structure Message where
  second : Second
  sender : String
  target : String
  text : String
  sent_at : String
  deriving DecidableEq

/-- `f"{ts}-from-{sender}.yaml"`. -/
def Message.fileName (m : Message) : String :=
  .ofList (secondStamp m.second ("-from-".toList ++ m.sender.toList ++ ".yaml".toList))

/-- The two were sent in the same second by the same sender. -/
def Message.SameStamp (m m' : Message) : Prop := m.second = m'.second ∧ m.sender = m'.sender

instance (m m' : Message) : Decidable (m.SameStamp m') := inferInstanceAs (Decidable (_ ∧ _))

/-- **A file name** says when a message was sent, and by whom. -/
theorem fileName_inj {m m' : Message} (h : m.fileName = m'.fileName) : m.SameStamp m' := by
  have hchars := congrArg String.toList h
  simp only [Message.fileName, String.toList_ofList] at hchars
  obtain ⟨hsecond, hrest⟩ := secondStamp_inj m.second.isLt m'.second.isLt hchars
  rw [List.append_assoc, List.append_assoc] at hrest
  have hsender := List.append_cancel_right (List.append_cancel_left hrest)
  exact ⟨Fin.ext hsecond, String.toList_inj.mp hsender⟩

/-- A directory of messages. -/
inductive Place where
  | inbox (target : String)
  | archive
  deriving DecidableEq

/-- A path below `messages/`. -/
abbrev Path := Place × String

/-- A file with a message, and the call that sent it. -/
structure File where
  place : Place
  message : Message
  id : Nat
  deriving DecidableEq

/-- Where the file is. -/
def File.path (f : File) : Path := (f.place, f.message.fileName)

/-- The files, and the `.tmp` files beside the inboxes' files. -/
structure Root where
  files : Table File.path
  tmps : Table File.path

/-- No message yet. -/
def Root.empty : Root := ⟨.empty, .empty⟩

/-! ## Commands -/

/-- A command. -/
inductive Cmd where
  | now
  /-- `atomic_write_yaml` up to the rename. -/
  | dump (target : String) (m : Message)
  | rename (target : String) (m : Message)
  | exists (path : Path)
  /-- `shutil.move` to the archive. -/
  | move (path : Path)
  | glob (target : String)
  | read (path : Path)

/-- The answer of each command; `false` and `none` are exceptions. -/
abbrev Resp : Cmd → Type
  | .now => Second
  | .dump _ _ | .rename _ _ | .exists _ | .move _ => Bool
  | .glob _ => List String
  | .read _ => Option File

abbrev sig : Sig := ⟨Cmd, Resp⟩

/-- What a command reads from outside: the host's clock, and whether the file system refuses a new
file. -/
structure Env where
  now : Second
  refuses : Bool

/-- The `*.yaml` files of an inbox, sorted. -/
def Root.names (s : Root) (target : String) : List String :=
  ((s.files.rows.filter fun f => f.place = .inbox target).map fun f => f.message.fileName).insertionSort
    (· ≤ ·)

/-- Execute a command for call `n`; a sender with a slash would name a directory that is not there. -/
def exec (n : Nat) (i : Env) (s : Root) : (c : Cmd) → Option (Resp c × Root)
  | .now => some (i.now, s)
  | .dump target m =>
    if i.refuses ∨ '/' ∈ m.sender.toList then some (false, s)
    else some (true, { s with tmps := s.tmps.put ⟨.inbox target, m, n⟩ })
  | .rename target m =>
    match s.tmps.find? (.inbox target, m.fileName) with
    | some f => some (true, ⟨s.files.put f, s.tmps.erase f.path⟩)
    | none => some (false, s)
  | .exists path => some ((s.files.find? path).isSome, s)
  | .move path =>
    match s.files.find? path with
    | some f => some (true, { s with files := (s.files.erase path).put { f with place := .archive } })
    | none => some (false, s)
  | .glob target => some (s.names target, s)
  | .read path => some (s.files.find? path, s)

abbrev store : Store sig := ⟨Root, Env, exec⟩

abbrev P (α : Type) := Prog sig PyError α

/-- Issue one command. -/
def cmd (c : Cmd) : P (Resp c) := @Prog.cmd sig PyError c

/-! ## The operations -/

/-- `arg or default`. -/
def orElse (arg : Option String) (default : String) : String := (arg.filter (· ≠ "")).getD default

/-- `_atomic_write_yaml`. -/
def atomicWriteYaml (target : String) (m : Message) : P Path := do
  if ← cmd (.dump target m) then do
    if ← cmd (.rename target m) then return (.inbox target, m.fileName)
    else .raise (.fileNotFound "")
  else .raise .osError

/-- `send_message`, on a host. -/
def sendMessage (hostname target text : String) (sender : Option String) : P Path := do
  let sender := orElse sender hostname
  let ts ← cmd .now
  let sent_at ← cmd .now
  atomicWriteYaml (orElse (some target) hostname)
    ⟨ts, sender, target, text, .ofList (isoFormat sent_at)⟩

/-- `broadcast_message`. -/
def broadcastMessage (hostname text : String) (sender : Option String) : P (List Path) := do
  let path ← sendMessage hostname "broadcast" text sender
  return [path]

/-- What `read_inbox` returns of a message. -/
structure Received where
  message : Message
  file : Path
  source : String
  id : Nat
  deriving DecidableEq

/-- `str(f)` below `inbox/`. -/
def inboxPath (target name : String) : String := target ++ "/" ++ name

/-- A message that was read. -/
def received (target name : String) (f : File) : Received where
  message := f.message
  file := (.inbox target, name)
  source := if "broadcast".toList <:+: (inboxPath target name).toList then "broadcast" else "direct"
  id := f.id

/-- The inner loop of `read_inbox`; a file that is gone is passed over. -/
def readEach (target : String) (messages : List Received) : List String → P (List Received)
  | [] => return messages
  | name :: names => do
    let msg ← cmd (.read (.inbox target, name))
    readEach target (messages ++ msg.toList.map (received target name)) names

/-- `read_inbox`, on a host. -/
def readInbox (host : String) (hostname : Option String) : P (List Received) := do
  let names ← cmd (.glob (orElse hostname host))
  let messages ← readEach (orElse hostname host) [] names
  let names ← cmd (.glob "broadcast")
  readEach "broadcast" messages names

/-- `archive_message`. -/
def archiveMessage (msg_path : Path) : P Unit := do
  if ← cmd (.exists msg_path) then do
    if ← cmd (.move msg_path) then return ()
    else .raise (.fileNotFound "")
  else return ()

/-- A call on a host; no target is the empty text. -/
inductive Op where
  | send (host : Name) (target : Option Name) (text : String) (sender : Option String)
  | broadcast (host : Name) (text : String) (sender : Option String)
  | readInbox (host : Name) (hostname : Option Name)
  | archive (msg_path : Path)

/-- What each call returns. -/
abbrev Ret : Op → Type
  | .send _ _ _ _ => Path
  | .broadcast _ _ _ => List Path
  | .readInbox _ _ => List Received
  | .archive _ => Unit

/-- The program of each call. -/
def prog : (o : Op) → P (Ret o)
  | .send host target text sender => sendMessage host.text ((target.map Name.text).getD "") text sender
  | .broadcast host text sender => broadcastMessage host.text text sender
  | .readInbox host hostname => readInbox host.text (hostname.map Name.text)
  | .archive msg_path => archiveMessage msg_path

/-- Any number of hosts. -/
abbrev system : System := ⟨sig, store, PyError, Op, Ret, prog⟩

/-! ## What should hold -/

/-- The event puts a message into an inbox. -/
def sends : Event system → Option (String × Message)
  | ⟨_, _, .rename target m, (done : Bool)⟩ => if done then some (target, m) else none
  | _ => none

/-- Message `id` was in its inbox before call `n` began. -/
def Early (n id : Nat) (w : World system) : Prop :=
  ∃ later earlier, w.trace = later ++ earlier ∧ (∀ e ∈ earlier, e.call ≠ n) ∧
    ∃ e ∈ earlier, e.call = id ∧ sends e ≠ none

/-- The inboxes that a call of `read_inbox` reads. -/
def Op.reads : Op → Place → Prop
  | .readInbox host hostname, p =>
    p = .inbox (orElse (hostname.map Name.text) host.text) ∨ p = .inbox "broadcast"
  | _, _ => False

/-- The call sends a message. -/
def Op.isSend : Op → Prop
  | .send _ _ _ _ | .broadcast _ _ _ => True
  | _ => False

/-- **No message is lost.** -/
structure Conserved (c : Config system) : Prop where
  /-- A send that has returned has sent. -/
  sent : ∀ n o a, o.isSend → c.Returned n o a → ∃ e ∈ c.world.trace, e.call = n ∧ sends e ≠ none
  /-- What was sent is in one file, of the inbox or of the archive. -/
  kept : ∀ e ∈ c.world.trace, ∀ target m, sends e = some (target, m) →
    ∃ f ∈ c.world.state.files.rows, f.id = e.call ∧ f.message = m ∧
      (f.place = .inbox target ∨ f.place = .archive) ∧
      ∀ g ∈ c.world.state.files.rows, g.id = e.call → g = f
  /-- What was in an inbox before it was read, and has not been archived, was returned. -/
  read : ∀ n host hostname messages, c.Returned n (.readInbox host hostname) messages →
    ∀ f ∈ c.world.state.files.rows, (Op.readInbox host hostname).reads f.place → Early n f.id c.world →
      ∃ r ∈ messages, r.id = f.id ∧ r.message = f.message

/-- No message meets another of its second and sender: not among the `.tmp` files of its inbox, not in
its inbox, and not in the archive. -/
def Distinct : Guard system
  | w, _, _, .dump target m =>
    ∀ f ∈ w.state.tmps.rows, f.place = .inbox target → ¬ f.message.SameStamp m
  | w, _, _, .rename target m =>
    ∀ f ∈ w.state.files.rows, f.place = .inbox target → ¬ f.message.SameStamp m
  | w, _, _, .move path =>
    ∀ f ∈ w.state.files.rows, f.path = path → path.1 ≠ .archive →
      ∀ g ∈ w.state.files.rows, g.place = .archive → ¬ g.message.SameStamp f.message
  | _, _, _, _ => True

instance decidableDistinct : (w : World system) → (n : Nat) → (o : Op) → (c : Cmd) →
    Decidable (Distinct w n o c)
  | w, _, _, .dump target m => inferInstanceAs (Decidable
      (∀ f ∈ w.state.tmps.rows, f.place = .inbox target → ¬ f.message.SameStamp m))
  | w, _, _, .rename target m => inferInstanceAs (Decidable
      (∀ f ∈ w.state.files.rows, f.place = .inbox target → ¬ f.message.SameStamp m))
  | w, _, _, .move path => inferInstanceAs (Decidable
      (∀ f ∈ w.state.files.rows, f.path = path → path.1 ≠ .archive →
        ∀ g ∈ w.state.files.rows, g.place = .archive → ¬ g.message.SameStamp f.message))
  | _, _, _, .now | _, _, _, .exists _ | _, _, _, .glob _ | _, _, _, .read _ => isTrue trivial

/-! ## The files -/

/-- Every file is of a message that was sent, every message that was sent has a file, and one only. -/
structure Kept (w : World system) : Prop where
  sent : ∀ f ∈ w.state.files.rows, ∃ e ∈ w.trace, e.call = f.id ∧ sends e ≠ none
  unique : ∀ f ∈ w.state.files.rows, ∀ g ∈ w.state.files.rows, f.id = g.id → f = g
  kept : ∀ e ∈ w.trace, ∀ target m, sends e = some (target, m) →
    ∃ f ∈ w.state.files.rows, f.id = e.call ∧ f.message = m ∧
      (f.place = .inbox target ∨ f.place = .archive)

/-- Call `n` has not put a message into an inbox. -/
def Unsent (n : Nat) (w : World system) : Prop := ∀ e ∈ mine n w, sends e = none

/-- The `.tmp` file that call `n` is going to rename is its own. -/
def Own (n : Nat) (target : String) (m : Message) (w : World system) : Prop :=
  w.state.tmps.find? (.inbox target, m.fileName) = some ⟨.inbox target, m, n⟩

/-- A call renames its own file, once. -/
def Renames (w : World system) : Event system → Prop
  | ⟨n, _, .rename target m, _⟩ => Own n target m w ∧ Unsent n w
  | _ => True

/-- A command that leaves the files. -/
theorem Kept.same {w w' : World system} {e : Event system} (h : Kept w) (htrace : w'.trace = e :: w.trace)
    (hfiles : w'.state.files = w.state.files) (he : sends e = none) : Kept w' where
  sent f hf := by
    rw [hfiles] at hf
    obtain ⟨e', he', hsent⟩ := h.sent f hf
    exact ⟨e', htrace ▸ List.mem_cons_of_mem _ he', hsent⟩
  unique := by
    rw [hfiles]
    exact h.unique
  kept e' he' target m hm := by
    rw [htrace, List.mem_cons] at he'
    rcases he' with rfl | he'
    · rw [he] at hm
      cases hm
    · rw [hfiles]
      exact h.kept e' he' target m hm

/-- A message comes into its inbox. -/
theorem Kept.renamed {w w' : World system} {n : Nat} {o : Op} {target : String} {m : Message}
    (h : Kept w) (hunsent : Unsent n w) (hg : Distinct w n o (.rename target m))
    (htrace : w'.trace = ⟨n, o, .rename target m, (true : Bool)⟩ :: w.trace)
    (hfiles : w'.state.files = w.state.files.put ⟨.inbox target, m, n⟩) : Kept w' := by
  have hmem {g : File} : g ∈ w'.state.files.rows ↔ g ∈ w.state.files.rows ∨ g = ⟨.inbox target, m, n⟩ := by
    rw [hfiles, Table.mem_put]
    refine or_congr_left (and_iff_left_of_imp fun hgm hpath => ?_)
    obtain ⟨hplace, hname⟩ := Prod.mk.inj hpath
    exact hg g hgm hplace (fileName_inj hname)
  have hnew : ∀ g ∈ w.state.files.rows, g.id ≠ n := by
    rintro g hgm rfl
    obtain ⟨e, he, hcall, hsent⟩ := h.sent g hgm
    exact hsent (hunsent e (List.mem_filter.mpr ⟨he, beq_iff_eq.mpr hcall⟩))
  refine ⟨fun f hf => ?_, fun f hf g hgm hid => ?_, fun e he target' m' hsent => ?_⟩
  · rcases hmem.mp hf with hf | rfl
    · obtain ⟨e, he, hsent⟩ := h.sent f hf
      exact ⟨e, htrace ▸ List.mem_cons_of_mem _ he, hsent⟩
    · exact ⟨_, htrace ▸ List.mem_cons_self, rfl, by simp [sends]⟩
  · rcases hmem.mp hf with hf | rfl <;> rcases hmem.mp hgm with hgm | rfl
    · exact h.unique f hf g hgm hid
    · exact absurd hid (hnew f hf)
    · exact absurd hid.symm (hnew g hgm)
    · rfl
  · rw [htrace, List.mem_cons] at he
    rcases he with rfl | he
    · obtain ⟨rfl, rfl⟩ : target = target' ∧ m = m' := by simpa [sends] using hsent
      exact ⟨_, hmem.mpr (.inr rfl), rfl, rfl, .inl rfl⟩
    · obtain ⟨f, hf, hrest⟩ := h.kept e he target' m' hsent
      exact ⟨f, hmem.mpr (.inl hf), hrest⟩

/-- A message goes to the archive. -/
theorem Kept.moved {w w' : World system} {n : Nat} {o : Op} {path : Path} {x : Bool} {f : File}
    (h : Kept w) (hg : Distinct w n o (.move path)) (hfind : w.state.files.find? path = some f)
    (htrace : w'.trace = ⟨n, o, .move path, x⟩ :: w.trace)
    (hfiles : w'.state.files = (w.state.files.erase path).put { f with place := .archive }) : Kept w' := by
  have hf := Table.find?_mem hfind
  have hpath : f.path = path := Table.find?_key hfind
  have hmem {g : File} : g ∈ w'.state.files.rows ↔
      g ∈ w.state.files.rows ∧ g ≠ f ∨ g = { f with place := .archive } := by
    rw [hfiles, Table.mem_put, Table.mem_erase, and_assoc]
    refine or_congr_left (and_congr_right fun hgm => ⟨fun hne he => hne.1 (he ▸ hpath), fun hne => ?_⟩)
    have hkey : g.path ≠ path := fun he => by
      have hgf := Table.find?_of_mem hgm
      rw [he, hfind] at hgf
      exact hne (Option.some.inj hgf).symm
    refine ⟨hkey, fun he => ?_⟩
    obtain ⟨hplace, hname⟩ := Prod.mk.inj he
    by_cases harchive : path.1 = .archive
    · have hfplace : f.place = .archive := (congrArg Prod.fst hpath).trans harchive
      exact hkey ((Prod.ext (hplace.trans hfplace.symm) hname).trans hpath)
    · exact hg f hf hpath harchive g hgm hplace (fileName_inj hname)
  have hold {g : File} (hgm : g ∈ w'.state.files.rows) : ∃ g' ∈ w.state.files.rows, g'.id = g.id := by
    rcases hmem.mp hgm with ⟨hgm, -⟩ | rfl
    · exact ⟨g, hgm, rfl⟩
    · exact ⟨f, hf, rfl⟩
  refine ⟨fun g hgm => ?_, fun g hgm g' hgm' hid => ?_, fun e he target m hsent => ?_⟩
  · obtain ⟨g', hgm', hid⟩ := hold hgm
    obtain ⟨e, he, hcall, hsent⟩ := h.sent g' hgm'
    exact ⟨e, htrace ▸ List.mem_cons_of_mem _ he, hcall.trans hid, hsent⟩
  · rcases hmem.mp hgm with ⟨hgm, hne⟩ | rfl <;> rcases hmem.mp hgm' with ⟨hgm', hne'⟩ | rfl
    · exact h.unique g hgm g' hgm' hid
    · exact absurd (h.unique g hgm f hf hid) hne
    · exact absurd (h.unique g' hgm' f hf hid.symm) hne'
    · rfl
  · have he' : e ∈ w.trace := by
      rw [htrace, List.mem_cons] at he
      refine he.resolve_left fun heq => ?_
      rw [heq] at hsent
      cases hsent
    obtain ⟨g, hgm, hid, hmsg, hplace⟩ := h.kept e he' target m hsent
    by_cases hgf : g = f
    · exact ⟨_, hmem.mpr (.inr rfl), hgf ▸ hid, hgf ▸ hmsg, .inr rfl⟩
    · exact ⟨g, hmem.mpr (.inl ⟨hgm, hgf⟩), hid, hmsg, hplace⟩

/-- **A command.** -/
theorem Kept.fires {w w' : World system} {e : Event system} (h : Kept w)
    (hg : Distinct w e.call e.op e.cmd) (hr : Renames w e) (hf : Fires w e w') : Kept w' := by
  obtain ⟨n, o, c, x⟩ := e
  obtain ⟨⟨i, hx⟩, htrace⟩ := hf
  simp only at hx hg htrace
  obtain ⟨s', trace'⟩ := w'
  simp only at hx htrace
  cases c with
  | now | «exists» | glob | read =>
    cases hx
    exact h.same htrace rfl rfl
  | dump target m =>
    simp only [exec] at hx
    split at hx <;> cases hx
    · exact h.same htrace rfl rfl
    · exact h.same htrace rfl rfl
  | rename target m =>
    obtain ⟨hown, hunsent⟩ := hr
    simp only [exec] at hx
    rw [hown] at hx
    cases hx
    exact h.renamed hunsent hg htrace rfl
  | move path =>
    simp only [exec] at hx
    split at hx
    · rename_i f hfind
      cases hx
      exact h.moved hg hfind htrace rfl
    · cases hx
      exact h.same htrace rfl rfl

/-! ## What the calls know -/

/-- The discipline of the runs in which no message meets another. -/
def apart : Discipline system := ⟨Distinct, Kept, Renames⟩

variable {n : Nat} {o : Op} {α : Type} {w w' : World system} {e : Event system}

/-- A command that is no rename. -/
theorem establishes {c : Cmd} {P : World system → Prop} {P' : Resp c → World system → Prop}
    (hc : ∀ w x, Renames w ⟨n, o, c, x⟩)
    (hP : ∀ w x w', P w → Distinct w n o c → Fires w ⟨n, o, c, x⟩ w' → P' x w') :
    Establishes apart n o P c P' :=
  fun w x w' hi hw hg hf => ⟨hc w x, hi.fires (e := ⟨n, o, c, x⟩) hg (hc w x) hf, hP w x w' hw hg hf⟩

/-- The `.tmp` file of a send is not touched by others. -/
theorem stable_own {target : String} {m : Message} : Stable apart n (Own n target m) := by
  intro w e w' hn _ hg hr hf _ hown
  obtain ⟨n', o, c, x⟩ := e
  obtain ⟨⟨i, hx⟩, -⟩ := hf
  simp only at hx hg hn
  obtain ⟨s', trace'⟩ := w'
  simp only at hx
  cases c with
  | now | «exists» | glob | read =>
    cases hx
    exact hown
  | dump target' m' =>
    simp only [exec] at hx
    split at hx <;> cases hx
    · exact hown
    · have hne : ¬ ((.inbox target, m.fileName) : Path) = (.inbox target', m'.fileName) := fun he => by
        obtain ⟨htarget, hname⟩ := Prod.mk.inj he
        exact hg _ (Table.find?_mem hown) htarget (fileName_inj hname)
      exact (Table.find?_put ..).trans ((if_neg hne).trans hown)
  | rename target' m' =>
    have hown' := hr.1
    have hne : ¬ ((.inbox target, m.fileName) : Path) = (.inbox target', m'.fileName) := fun he => by
      rw [Own, he, hown'] at hown
      exact hn (congrArg File.id (Option.some.inj hown))
    simp only [exec] at hx
    rw [hown'] at hx
    cases hx
    exact (Table.find?_erase ..).trans ((if_neg hne).trans hown)
  | move path =>
    simp only [exec] at hx
    split at hx <;> cases hx <;> exact hown

/-- **A send**: the message goes into the inbox. -/
theorem atomicWriteYaml_outline {Q : Except PyError Path → World system → Prop} {target : String}
    {m : Message} (hok : ∀ a w, (∃ e ∈ w.trace, e.call = n ∧ sends e ≠ none) → Q (.ok a) w)
    (herr : ∀ err w, Q (.error err) w) :
    Outline apart n o Q (atomicWriteYaml target m) (Unsent n) := by
  refine outline_cmd (fun x w => Unsent n w ∧ (x = true → Own n target m w)) (fun x => ?_)
    (establishes (fun _ _ => trivial) fun w x w' hw hg hf => ?_) fun x => ?_
  · cases x with
    | true =>
      exact stable_and (stable_mine (p := fun l => ∀ e ∈ l, sends e = none)) fun w e w' hn hi hg hr hf hi' h _ =>
        stable_own w e w' hn hi hg hr hf hi' (h rfl)
    | false =>
      exact stable_and (stable_mine (p := fun l => ∀ e ∈ l, sends e = none)) fun _ _ _ _ _ _ _ _ _ _ h => by
        cases h
  · refine ⟨fun e he => ?_, fun htrue => ?_⟩
    · rw [mine_own hf rfl, List.mem_cons] at he
      rcases he with rfl | he
      · rfl
      · exact hw e he
    · obtain ⟨⟨i, hx⟩, -⟩ := hf
      subst htrue
      obtain ⟨s', trace'⟩ := w'
      simp only [exec] at hx
      split at hx <;> cases hx
      exact (Table.find?_put ..).trans (if_pos rfl)
  · cases x with
    | false => exact outline_raise fun _ _ _ => herr _ _
    | true =>
      refine outline_cmd (fun x w => x = true ∧ ∃ e ∈ w.trace, e.call = n ∧ sends e ≠ none)
        (fun x => (lasting_pure.and lasting_executed).stable) (fun w x w' hi hw hg hf => ?_) fun x => ?_
      · have hr : Renames w ⟨n, o, .rename target m, x⟩ := ⟨hw.2 rfl, hw.1⟩
        have htrue : x = true := by
          obtain ⟨⟨i, hx⟩, -⟩ := hf
          have hown := hw.2 rfl
          simp only [exec] at hx
          rw [hown] at hx
          exact (Prod.mk.inj (Option.some.inj hx)).1.symm
        subst htrue
        exact ⟨hr, hi.fires (e := ⟨n, o, .rename target m, _⟩) hg hr hf, rfl, executed_now hf ⟨rfl, by simp [sends]⟩⟩
      · cases x with
        | true => exact outline_ret fun w _ hw => hok _ w hw.2
        | false => exact outline_raise fun _ _ _ => herr _ _

theorem sendMessage_outline {Q : Except PyError Path → World system → Prop} {host target text : String}
    {sender : Option String} (hok : ∀ a w, (∃ e ∈ w.trace, e.call = n ∧ sends e ≠ none) → Q (.ok a) w)
    (herr : ∀ err w, Q (.error err) w) :
    Outline apart n o Q (sendMessage host target text sender) (Unsent n) := by
  have hnow (c : Second → P Path) (hc : ∀ t, Outline apart n o Q (c t) (Unsent n)) :
      Outline apart n o Q (cmd .now >>= c) (Unsent n) := by
    refine outline_cmd (fun _ => Unsent n) (fun _ => stable_mine (p := fun l => ∀ e ∈ l, sends e = none))
      (establishes (fun _ _ => trivial) fun w x w' hw _ hf e he => ?_) hc
    rw [mine_own hf rfl, List.mem_cons] at he
    rcases he with rfl | he
    · rfl
    · exact hw e he
  exact hnow _ fun ts => hnow _ fun sent_at => atomicWriteYaml_outline hok herr

/-! ## Reading -/

/-- What was early stays so, and nothing becomes so. -/
theorem early_of_fires {id : Nat} (hf : Fires w e w') (hn : mine n w ≠ [] ∨ e.call = n)
    (h : Early n id w') : Early n id w := by
  obtain ⟨later, earlier, htrace, hnone, hsent⟩ := h
  rw [hf.2] at htrace
  cases later with
  | nil =>
    rw [List.nil_append] at htrace
    rcases hn with hn | hn
    · refine absurd (List.filter_eq_nil_iff.mpr fun e' he' => ?_) hn
      simpa using hnone e' (htrace ▸ List.mem_cons_of_mem _ he')
    · exact absurd hn (hnone e (htrace ▸ List.mem_cons_self))
  | cons e' later =>
    rw [List.cons_append, List.cons.injEq] at htrace
    exact ⟨later, earlier, htrace.2, hnone, hsent⟩

/-- Where a file comes from. -/
theorem mem_of_fires {f : File} (hr : Renames w e) (hf : Fires w e w') (h : f ∈ w'.state.files.rows) :
    f ∈ w.state.files.rows ∨ f.place = .archive ∨ f.id = e.call ∧ Unsent e.call w := by
  obtain ⟨n', o, c, x⟩ := e
  obtain ⟨⟨i, hx⟩, -⟩ := hf
  simp only at hx
  obtain ⟨s', trace'⟩ := w'
  simp only at hx h
  cases c with
  | now | «exists» | glob | read =>
    cases hx
    exact .inl h
  | dump target' m' =>
    simp only [exec] at hx
    split at hx <;> cases hx <;> exact .inl h
  | rename target' m' =>
    have hown := hr.1
    simp only [exec] at hx
    rw [hown] at hx
    cases hx
    rcases Table.mem_put.mp h with ⟨h, -⟩ | rfl
    · exact .inl h
    · exact .inr (.inr ⟨rfl, hr.2⟩)
  | move path =>
    simp only [exec] at hx
    split at hx <;> cases hx
    · rcases Table.mem_put.mp h with ⟨h, -⟩ | rfl
      · exact .inl (Table.mem_erase.mp h).1
      · exact .inr (.inl rfl)
    · exact .inl h

/-- Call `n` has begun, and of the inboxes `reads` every file that was there before is still to be read
or among the messages. -/
def Covered (n : Nat) (reads : Place → Prop) (todo : Path → Prop) (messages : List Received)
    (w : World system) : Prop :=
  mine n w ≠ [] ∧ ∀ f ∈ w.state.files.rows, reads f.place → Early n f.id w →
    todo f.path ∨ ∃ r ∈ messages, r.id = f.id ∧ r.message = f.message

variable {reads : Place → Prop} {todo : Path → Prop} {messages : List Received}

theorem stable_covered (harchive : ¬ reads .archive) : Stable apart n (Covered n reads todo messages) := by
  intro w e w' hn _ _ hr hf _ hcov
  refine ⟨by rw [mine_other hf hn]; exact hcov.1, fun f hfile hreads hearly => ?_⟩
  have hbefore := early_of_fires hf (.inl hcov.1) hearly
  rcases mem_of_fires hr hf hfile with hfile | hplace | ⟨hid, hunsent⟩
  · exact hcov.2 f hfile hreads hbefore
  · exact absurd (hplace ▸ hreads) harchive
  · obtain ⟨later, earlier, htrace, -, e', he', hcall, hsent⟩ := hbefore
    have hmine : e' ∈ mine e.call w :=
      List.mem_filter.mpr ⟨htrace ▸ List.mem_append_right _ he', beq_iff_eq.mpr (hcall.trans hid)⟩
    exact absurd (hunsent e' hmine) hsent

/-- A command of the call itself that leaves the files. -/
theorem covered_own {c : Cmd} {x : Resp c} {todo' : Path → Prop} {messages' : List Received}
    (hf : Fires w ⟨n, o, c, x⟩ w') (hstate : w'.state = w.state)
    (h : ∀ f ∈ w.state.files.rows, reads f.place → Early n f.id w →
      todo' f.path ∨ ∃ r ∈ messages', r.id = f.id ∧ r.message = f.message) :
    Covered n reads todo' messages' w' := by
  refine ⟨by rw [mine_own hf rfl]; exact List.cons_ne_nil _ _, fun f hfile hreads hearly => ?_⟩
  rw [hstate] at hfile
  exact h f hfile hreads (early_of_fires hf (.inr rfl) hearly)

/-- The inner loop: what is left of the names is still to be read. -/
theorem readEach_outline {E : PyError → World system → Prop} (harchive : ¬ reads .archive) {target : String} :
    ∀ (names : List String) (messages : List Received),
      Outline apart n o (Outcome (fun messages => Covered n reads todo messages) E)
        (readEach target messages names)
        (Covered n reads (fun p => todo p ∨ ∃ name ∈ names, p = (.inbox target, name)) messages)
  | [], messages => by
    refine outline_ret fun w _ hw => ⟨hw.1, fun f hfile hreads hearly => ?_⟩
    rcases hw.2 f hfile hreads hearly with (htodo | ⟨name, hname, -⟩) | hmsg
    · exact .inl htodo
    · cases hname
    · exact .inr hmsg
  | name :: names, messages => by
    refine outline_cmd (fun (x : Option File) => Covered n reads
        (fun p => todo p ∨ ∃ name ∈ names, p = (.inbox target, name))
        (messages ++ x.toList.map (received target name)))
      (fun _ => stable_covered harchive) (establishes (fun _ _ => trivial) fun w x w' hw _ hf => ?_)
      fun x => readEach_outline harchive names _
    obtain ⟨hstate, hx⟩ : w'.state = w.state ∧ x = w.state.files.find? (.inbox target, name) := by
      obtain ⟨⟨i, hx⟩, -⟩ := hf
      obtain ⟨rfl, hs⟩ := Prod.mk.inj (Option.some.inj hx)
      exact ⟨hs.symm, rfl⟩
    refine covered_own hf hstate fun f hfile hreads hearly => ?_
    rcases hw.2 f hfile hreads hearly with (htodo | ⟨name', hname', hpath⟩) | ⟨r, hr, hrest⟩
    · exact .inl (.inl htodo)
    · rcases List.mem_cons.mp hname' with rfl | hname'
      · refine .inr ⟨received target name' f, ?_, rfl, rfl⟩
        rw [hx, ← hpath, Table.find?_of_mem hfile]
        simp
      · exact .inl (.inr ⟨name', hname', hpath⟩)
    · exact .inr ⟨r, List.mem_append_left _ hr, hrest⟩

/-- Every file of an inbox is among its names. -/
theorem mem_names {s : Root} {f : File} {target : String} (hf : f ∈ s.files.rows)
    (hplace : f.place = .inbox target) : f.message.fileName ∈ s.names target := by
  rw [Root.names, List.mem_insertionSort]
  exact List.mem_map.mpr ⟨f, List.mem_filter.mpr ⟨hf, by simpa using hplace⟩, rfl⟩

/-- A look at an inbox: its names. -/
theorem glob_outline (reads : Place → Prop) (todo : Path → Prop) (messages : List Received)
    {Q : Except PyError α → World system → Prop} {A : World system → Prop} {target : String}
    {k : List String → P α} (harchive : ¬ reads .archive)
    (hA : ∀ w, A w → ∀ f ∈ w.state.files.rows, reads f.place → Early n f.id w →
      (todo f.path ∨ f.place = .inbox target) ∨ ∃ r ∈ messages, r.id = f.id ∧ r.message = f.message)
    (hk : ∀ names, Outline apart n o Q (k names)
      (Covered n reads (fun p => todo p ∨ ∃ name ∈ names, p = (.inbox target, name)) messages)) :
    Outline apart n o Q (cmd (.glob target) >>= k) A := by
  refine outline_cmd (fun (names : List String) =>
      Covered n reads (fun p => todo p ∨ ∃ name ∈ names, p = (.inbox target, name)) messages)
    (fun _ => stable_covered harchive) (establishes (fun _ _ => trivial) fun w names w' hw _ hf => ?_) hk
  obtain ⟨hstate, hnames⟩ : w'.state = w.state ∧ names = w.state.names target := by
    obtain ⟨⟨i, hx⟩, -⟩ := hf
    obtain ⟨rfl, hs⟩ := Prod.mk.inj (Option.some.inj hx)
    exact ⟨hs.symm, rfl⟩
  refine covered_own hf hstate fun f hfile hreads hearly => ?_
  rcases hA w hw f hfile hreads hearly with (htodo | hplace) | hmsg
  · exact .inl (.inl htodo)
  · exact .inl (.inr ⟨f.message.fileName, hnames ▸ mem_names hfile hplace, Prod.ext hplace rfl⟩)
  · exact .inr hmsg

/-- **`read_inbox`**: what was in the inboxes before, and still is, is returned. -/
theorem readInbox_outline {E : PyError → World system → Prop} {host : String} {hostname : Option String} :
    Outline apart n o (Outcome (fun messages => Covered n
        (fun p => p = .inbox (orElse hostname host) ∨ p = .inbox "broadcast") (fun _ => False) messages) E)
      (readInbox host hostname) fun _ => True := by
  unfold readInbox
  generalize orElse hostname host = own
  have harchive : ¬ ((.archive : Place) = .inbox own ∨ (.archive : Place) = .inbox "broadcast") := by
    simp
  refine glob_outline (fun p => p = .inbox own ∨ p = .inbox "broadcast")
    (fun p => p.1 = .inbox "broadcast") [] harchive
    (fun w _ f hfile hreads hearly => .inl hreads.symm) fun names => ?_
  refine outline_bind (R := fun messages =>
    Covered n _ (fun p => p.1 = .inbox "broadcast") messages) (fun messages => ?_)
    (readEach_outline harchive names [])
  refine glob_outline (fun p => p = .inbox own ∨ p = .inbox "broadcast") (fun _ => False) messages
    harchive
    (fun w hw f hfile hreads hearly => ?_) fun names => readEach_outline harchive names messages
  exact (hw.2 f hfile hreads hearly).imp_left .inr

/-! ## Runs -/

/-- What is known of a call that has ended. -/
def Known (n : Nat) : (o : Op) → Except PyError (Ret o) → World system → Prop
  | .send _ _ _ _, .ok _, w | .broadcast _ _ _, .ok _, w => ∃ e ∈ w.trace, e.call = n ∧ sends e ≠ none
  | .readInbox host hostname, .ok messages, w =>
    Covered n (Op.readInbox host hostname).reads (fun _ => False) messages w
  | _, _, _ => True

theorem prog_outline (n : Nat) (o : Op) : Outline apart n o (Known n o) (prog o) (Untouched n) := by
  have hunsent : ∀ w, apart.Inv w → Untouched n w → Unsent n w := fun w _ hw e he => by
    rw [Untouched] at hw
    rw [hw] at he
    cases he
  cases o with
  | send host target text sender =>
    exact outline_pre hunsent (sendMessage_outline (fun _ _ h => h) fun _ _ => trivial)
  | broadcast host text sender =>
    refine outline_pre hunsent (outline_bind
      (R := fun _ w => ∃ e ∈ w.trace, e.call = n ∧ sends e ≠ none) (fun path => ?_)
      (sendMessage_outline (fun _ _ h => h) fun _ _ => trivial))
    exact outline_ret fun w _ hw => hw
  | readInbox host hostname =>
    refine outline_mono (fun _ _ _ => trivial) (fun r w _ hr => ?_)
      (readInbox_outline (E := fun _ _ => True))
    cases r with
    | ok messages => exact hr
    | error err => trivial
  | archive msg_path =>
    have heach : (archiveMessage msg_path).Each fun c => ∀ n o w x, Renames w ⟨n, o, c, x⟩ := by
      refine Prog.each_cmd_bind (fun _ _ _ _ => trivial) fun there => ?_
      split
      · refine Prog.each_cmd_bind (fun _ _ _ _ => trivial) fun moved => ?_
        split <;> trivial
      · trivial
    exact outline_mono (fun _ _ _ => trivial) (fun _ _ _ _ => trivial) (outline_of_each stable_true
      (fun c hc => establishes (fun w x => hc n _ w x) fun _ _ _ _ _ _ => trivial) heach)

/-- **No message is lost where none meets another of its second and sender.** -/
theorem conserved_of_distinct {c : Config system} (h : Run Distinct (.init .empty) c) : Conserved c := by
  have hempty : Kept ⟨.empty, []⟩ :=
    ⟨fun _ hf => absurd hf List.not_mem_nil, fun _ hf => absurd hf List.not_mem_nil,
      fun _ he => absurd he List.not_mem_nil⟩
  have hsound := run_sound (D := apart) prog_outline hempty h
  refine ⟨fun n o a hsend hret => ?_, fun e he target m hsent => ?_,
    fun n host hostname messages hret f hfile hreads hearly => ?_⟩
  · have hknown := hsound.returned hret
    cases o with
    | send => exact hknown
    | broadcast => exact hknown
    | readInbox => exact hsend.elim
    | archive => exact hsend.elim
  · obtain ⟨f, hf, hid, hmsg, hplace⟩ := hsound.inv.kept e he target m hsent
    exact ⟨f, hf, hid, hmsg, hplace, fun g hg hgid => hsound.inv.unique g hg f hf (hgid.trans hid.symm)⟩
  · have hcovered : Covered n _ (fun _ => False) messages c.world := hsound.returned hret
    exact (hcovered.2 f hfile hreads hearly).resolve_left id

/-- Two hosts. -/
def hostA : Name := ⟨"a", by decide⟩
def hostB : Name := ⟨"b", by decide⟩

/-- A host sends to another at a time. -/
def sendAt (n : Nat) (second : Second) (text : String) : List (Act system) :=
  solo system n (.send hostA (some hostB) text none) 4 ⟨second, false⟩

/-- Two messages sent in different seconds, and read. -/
def apartRun : List (Act system) :=
  sendAt 0 0 "x" ++ sendAt 1 1 "y" ++ solo system 2 (.readInbox hostB none) 4 ⟨1, false⟩

theorem apartRun_plays : (play Distinct (.init Root.empty) apartRun).isSome := by decide +kernel

theorem conserved_of_distinct_two : Conserved (played Distinct _ _ apartRun_plays) :=
  conserved_of_distinct (run_played apartRun_plays)

/-- **Two messages in one second**: the second takes the place of the first. -/
theorem message_overwritten : ¬ ∀ c : Config system, Run Free (.init Root.empty) c → Conserved c := by
  intro h
  have hplay : (play Free (.init Root.empty) (sendAt 0 0 "x" ++ sendAt 1 0 "y")).any (fun c =>
      c.world.trace.any (fun e => e.call = 0 && (sends e).isSome) &&
        c.world.state.files.rows.all fun f => f.id ≠ 0) = true := by
    decide +kernel
  obtain ⟨c, hc, ht⟩ := exists_run_of_play hplay
  simp only [Bool.and_eq_true, List.any_eq_true, List.all_eq_true, decide_eq_true_iff] at ht
  obtain ⟨⟨e, he, hcall, hsent⟩, hnone⟩ := ht
  obtain ⟨⟨target, m⟩, hsent⟩ := Option.isSome_iff_exists.mp hsent
  obtain ⟨f, hf, hid, -⟩ := (h c hc).kept e he target m hsent
  exact hnone f hf (hid.trans hcall)

end ClaudeSwarm.Messages
