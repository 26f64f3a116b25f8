import Multisync.BlockLoss
import Multisync.Slicing
import Mathlib.Tactic

/-!
# A server that nobody answers

As long as nothing arrives, each wait of `start` sends the front of the queue and makes
room for the next block.  So the announcement and the blocks are sent one in each wait,
and `start` returns with the wait after the last of them.
-/

namespace Multisync

open ByteLayout Effects BlockAssembly

/-- The announcement and the first `count` blocks, each with the bytes at the place
that its offset wraps to. -/
def wrappedPosts (source : Bytes) (count : ℕ) : List Post :=
  .info :: (List.range count).map fun number =>
    .block number (slice blockSize source (number % 2 ^ 22))

theorem wrappedPosts_succ (source : Bytes) (count : ℕ) :
    wrappedPosts source (count + 1) = wrappedPosts source count ++
      [.block count (slice blockSize source (count % 2 ^ 22))] := by
  rw [wrappedPosts, List.range_succ, List.map_append]
  rfl

theorem length_wrappedPosts (source : Bytes) (count : ℕ) :
    (wrappedPosts source count).length = count + 1 := by
  simp [wrappedPosts]

theorem take_wrappedPosts {source : Bytes} {first count : ℕ} (hle : first ≤ count) :
    (wrappedPosts source count).take (first + 1) = wrappedPosts source first := by
  simp [wrappedPosts, ← List.map_take, List.take_range, Nat.min_eq_left hle]

/-- A wait that ends because the socket can be written, and goes well. -/
structure ServerInput.Writes (input : ServerInput) : Prop where
  ready : input.ready = .ok ⟨false, true⟩
  send : input.sendError = none
  read : input.readError = false

namespace BlockServer

variable {order : ByteOrder} {initial server : BlockServer} {source : Bytes}
  {posts : List Post} {input : ServerInput}

/-- What was sent are the posts that are not queued. -/
theorem Serves.sent_eq (hserves : Serves order initial posts server) :
    server.socket.sent =
      (posts.take (posts.length - server.messageQueue.length)).map fun post =>
        (initial.socket.destination, initial.render order post) := by
  have hposted := hserves.posted
  have hlength := congrArg List.length hposted
  rw [BlockServer.posted] at hposted
  simp only [BlockServer.posted, List.length_append, List.length_map] at hlength
  have hbytes : server.socket.sent.map Prod.snd =
      (posts.take (posts.length - server.messageQueue.length)).map
        (initial.render order) := by
    rw [List.map_take, ← hposted, ← hlength, Nat.add_sub_cancel, List.take_left' (by simp)]
  have hpairs : server.socket.sent = (server.socket.sent.map Prod.snd).map fun bytes =>
      (initial.socket.destination, bytes) := by
    rw [List.map_map]
    conv_lhs => rw [← List.map_id server.socket.sent]
    apply List.map_congr_left
    intro datagram hmem
    exact Prod.ext (hserves.sent datagram hmem) rfl
  rw [hpairs, hbytes, List.map_map]
  rfl

/-- Where the server is after the given number of waits. -/
inductive Unattended (order : ByteOrder) (initial : BlockServer) (source : Bytes) :
    ℕ → ServerPhase → BlockServer → Prop
  | serving {server : BlockServer} {number : ℕ} (hlt : number < blockCount blockSize source)
      (hserves : Serves order initial (wrappedPosts source (number + 1)) server)
      (hqueue : server.messageQueue.length = 2)
      (hhosts : server.hostInfo.isEmpty = true)
      (hsource : server.input.source = some source)
      (hgood : number + 1 < blockCount blockSize source → server.input.good = true) :
      Unattended order initial source number
        (.serving (initial.fileInfo.blockAt order number)) server
  | draining {server : BlockServer}
      (hserves : Serves order initial (wrappedPosts source (blockCount blockSize source))
        server)
      (hqueue : server.messageQueue.length = 1)
      (hhosts : server.hostInfo.isEmpty = true) :
      Unattended order initial source (blockCount blockSize source) .draining server
  | returned {server : BlockServer} {waits : ℕ}
      (hlt : blockCount blockSize source < waits)
      (hserves : Serves order initial (wrappedPosts source (blockCount blockSize source))
        server)
      (hempty : server.messageQueue = []) :
      Unattended order initial source waits .returned server

theorem Unattended.sent_eq {waits : ℕ} {phase : ServerPhase}
    (hserver : Unattended order initial source waits phase server) :
    server.socket.sent =
      ((wrappedPosts source (blockCount blockSize source)).take waits).map fun post =>
        (initial.socket.destination, initial.render order post) := by
  cases hserver with
  | serving hlt hserves hqueue _ _ _ =>
      rw [hserves.sent_eq, hqueue, length_wrappedPosts, ← take_wrappedPosts hlt,
        List.take_take]
      congr 2
      omega
  | draining hserves hqueue _ =>
      rw [hserves.sent_eq, hqueue, length_wrappedPosts, Nat.add_sub_cancel]
  | returned hlt hserves hempty =>
      rw [hserves.sent_eq, hempty, List.length_nil, Nat.sub_zero, List.take_length,
        List.take_of_length_le]
      rw [length_wrappedPosts]
      omega

theorem Unattended.returned_iff {waits : ℕ} {phase : ServerPhase}
    (hserver : Unattended order initial source waits phase server) :
    phase = .returned ↔ blockCount blockSize source < waits := by
  cases hserver with
  | serving hlt _ _ _ _ _ => simpa using hlt.le
  | draining _ _ _ => simp
  | returned hlt _ _ => simpa using hlt

/-- The second loop goes on while there is something to send. -/
theorem drainHead_of_queue (hqueue : 0 < server.messageQueue.length) :
    drainHead server = .ok .draining server := by
  simp only [drainHead, bind_apply, get_apply]
  rw [if_pos (Or.inr hqueue)]
  rfl

theorem drainHead_of_empty (hhosts : server.hostInfo.isEmpty = true)
    (hempty : server.messageQueue = []) : drainHead server = .ok .returned server := by
  simp only [drainHead, bind_apply, get_apply]
  rw [if_neg (by simp [hhosts, hempty])]
  rfl

section Waits

variable (hfile : (initial.fileInfo.getBlockCount order).toNat =
    blockCount blockSize source)

include hfile

/-- The head of the first loop, with one message in the queue. -/
theorem serveHead_unattended {number : ℕ} (hread : input.readError = false)
    (hle : number ≤ blockCount blockSize source)
    (hserves : Serves order initial (wrappedPosts source number) server)
    (hqueue : server.messageQueue.length = 1)
    (hhosts : server.hostInfo.isEmpty = true)
    (hsource : server.input.source = some source)
    (hgood : number < blockCount blockSize source → server.input.good = true) :
    ∃ phase final, serveHead order input (initial.fileInfo.blockAt order number) server =
        .ok phase final ∧ Unattended order initial source number phase final := by
  have hbound := (initial.fileInfo.getBlockCount order).toNat_lt
  rw [hfile] at hbound
  have hcount : (server.fileInfo.getBlockCount order).toNat = blockCount blockSize source := by
    rw [hserves.fileInfo, hfile]
  rw [← hserves.fileInfo]
  rcases Nat.lt_or_eq_of_le hle with hlt | heq
  · have hnow := hgood hlt
    obtain ⟨hpayload, hfound, hnext⟩ :=
      @readBlock_of_good order server.fileInfo _ _ number hnow hsource
    have hbad : server.input.bad = false := by
      simp only [InStream.good, Bool.not_eq_true', Bool.or_eq_false_iff] at hnow
      exact hnow.2
    have hhead := @serveHead_of_room order server input number (by omega) (by omega)
      (by omega)
    simp only [hread, readBlock_not_bad _ hbad, Bool.false_eq_true, if_false] at hhead
    refine ⟨_, _, hhead, ?_⟩
    rw [hserves.fileInfo] at hpayload hfound hnext ⊢
    refine .serving hlt ?_ ?_ hhosts hfound fun hsucc => hnext (length_slice_of_succ_lt ?_)
    · have hpushed := hserves.pushBlock number (length_readBlock_le order false
        (initial.fileInfo.blockAt order number) server.input)
        (readBlock order false (initial.fileInfo.blockAt order number) server.input).2
      rw [hserves.fileInfo] at hpushed
      rw [wrappedPosts_succ, ← hpayload]
      exact hpushed
    · simp [hqueue]
    · have := Nat.mod_le number (2 ^ 22)
      omega
  · subst heq
    rw [serveHead_of_done hbound (by omega), drainHead_of_queue (by omega)]
    exact ⟨_, _, rfl, .draining hserves hqueue hhosts⟩

theorem start_unattended {ephemeral : UInt16} (hread : input.readError = false)
    (hfresh : Serves order initial [] initial) (hqueue : initial.messageQueue = [])
    (hhosts : initial.hostInfo.isEmpty = true)
    (hsource : initial.input.source = some source) (hgood : initial.input.good = true) :
    ∃ phase final, start order ephemeral none input initial = .ok phase final ∧
      Unattended order initial source 0 phase final := by
  let port := if initial.socket.group.port = 0 then ephemeral else initial.socket.group.port
  let opened : BlockServer :=
    { initial with socket := { initial.socket with bound := some port } }
  have hopened : Serves order initial [] opened :=
    hfresh.of_same rfl rfl rfl rfl rfl rfl
  apply serveHead_unattended hfile hread (Nat.zero_le _) hopened.pushInfo _ hhosts hsource
    fun _ => hgood
  simp [opened, hqueue]

/-- A wait that sends the front of the queue, and what comes before the next. -/
theorem resume_unattended {waits : ℕ} {phase : ServerPhase}
    (hpath : initial.path.length < 2 ^ 32) (hwrites : input.Writes)
    (hserver : Unattended order initial source waits phase server) :
    ∃ phase' final, resume order input phase server = .ok phase' final ∧
      Unattended order initial source (waits + 1) phase' final := by
  cases hserver with
  | serving hlt hserves hqueue hhosts hsource hgood =>
      obtain ⟨message, rest, hcons⟩ := List.exists_cons_of_length_eq_add_one hqueue
      have hselect := select_writable hserves hpath hwrites.ready hwrites.send hcons
      have hhead := @serveHead_unattended order initial _ source input hfile (waits + 1)
        hwrites.read hlt (hserves.pop hcons) (by simpa [hcons] using hqueue) hhosts hsource
        hgood
      rw [resume, bind_of_ok hselect, FileInfo.succ_blockAt]
      exact hhead
  | draining hserves hqueue hhosts =>
      obtain ⟨message, rest, hcons⟩ := List.exists_cons_of_length_eq_add_one hqueue
      have hempty : rest = [] := by simpa [hcons] using hqueue
      have hselect := select_writable hserves hpath hwrites.ready hwrites.send hcons
      rw [resume, bind_of_ok hselect]
      refine ⟨_, _, drainHead_of_empty ?_ ?_, .returned (Nat.lt_succ_self _)
        (hserves.pop hcons) hempty⟩
      · exact hhosts
      · exact hempty
  | returned hlt hserves hempty =>
      exact ⟨_, _, rfl, .returned (hlt.trans (Nat.lt_succ_self _)) hserves hempty⟩

end Waits

end BlockServer

namespace ServerRun

variable {order : ByteOrder} {initial : BlockServer} {source : Bytes}

theorem step_unattended {waits : ℕ} {run : ServerRun} {input : ServerInput}
    (hfile : (initial.fileInfo.getBlockCount order).toNat = blockCount blockSize source)
    (hpath : initial.path.length < 2 ^ 32) (hwrites : input.Writes)
    (hrun : ∃ phase, run.phase = .ok phase ∧
      BlockServer.Unattended order initial source waits phase run.server) :
    ∃ phase, (run.step order input).phase = .ok phase ∧
      BlockServer.Unattended order initial source (waits + 1) phase
        (run.step order input).server := by
  obtain ⟨phase, hphase, hserver⟩ := hrun
  rw [step, hphase]
  simp only
  split_ifs with hwakes
  · obtain ⟨phase', final, hok, hfinal⟩ :=
      BlockServer.resume_unattended hfile hpath hwrites hserver
    rw [hok]
    exact ⟨phase', rfl, hfinal⟩
  · -- Only a server with nothing to send is not woken.
    have hempty : run.server.messageQueue = [] := by
      by_contra hne
      apply hwakes
      rw [hwrites.ready]
      change Ready.wakes ⟨false, true⟩ (!run.server.messageQueue.isEmpty) = true
      simpa [Ready.wakes] using hne
    cases hserver with
    | serving _ _ hqueue _ _ _ => simp [hempty] at hqueue
    | draining _ hqueue _ => simp [hempty] at hqueue
    | returned hlt hserves _ =>
        exact ⟨_, hphase, .returned (hlt.trans (Nat.lt_succ_self _)) hserves hempty⟩

theorem steps_unattended {waits : ℕ} {run : ServerRun} {inputs : List ServerInput}
    (hfile : (initial.fileInfo.getBlockCount order).toNat = blockCount blockSize source)
    (hpath : initial.path.length < 2 ^ 32) (hwrites : ∀ input ∈ inputs, input.Writes)
    (hrun : ∃ phase, run.phase = .ok phase ∧
      BlockServer.Unattended order initial source waits phase run.server) :
    ∃ phase, (run.steps order inputs).phase = .ok phase ∧
      BlockServer.Unattended order initial source (waits + inputs.length) phase
        (run.steps order inputs).server := by
  induction inputs generalizing waits run with
  | nil => exact hrun
  | cons input inputs ih =>
      have hstep := step_unattended hfile hpath (hwrites input List.mem_cons_self) hrun
      have hrest := ih (fun other hmem => hwrites other (List.mem_cons_of_mem _ hmem)) hstep
      rwa [Nat.add_right_comm] at hrest

/-- When nothing arrives, each wait sends the next of the announcement and the blocks, and
`start` has returned when there is one wait more than blocks, and not before. -/
theorem steps_alone {ephemeral : UInt16} {first : ServerInput} {inputs : List ServerInput}
    (hserver : initial.ServesFile order source)
    (hcount : blockCount blockSize source < 2 ^ 32) (hpath : initial.path.length < 2 ^ 32)
    (hread : first.readError = false) (hwrites : ∀ input ∈ inputs, input.Writes) :
    let run := (start order ephemeral none first initial).steps order inputs
    (run.phase = .ok .returned ↔ blockCount blockSize source < inputs.length) ∧
      run.server.socket.sent =
        ((wrappedPosts source (blockCount blockSize source)).take inputs.length).map
          fun post => (initial.socket.destination, initial.render order post) := by
  intro run
  have hfile := hserver.count hcount
  obtain ⟨hslicing, hgood⟩ := hserver.slicing
  obtain ⟨hqueue, hhosts⟩ : initial.messageQueue = [] ∧ initial.hostInfo.isEmpty = true := by
    obtain ⟨_, _, _, _, _, rfl⟩ := hserver
    exact ⟨rfl, rfl⟩
  obtain ⟨phase, final, hstart, hfinal⟩ := @BlockServer.start_unattended order initial source
    first hfile ephemeral hread hslicing.serves hqueue hhosts hslicing.source hgood
  have hstarted : ∃ phase, (start order ephemeral none first initial).phase = .ok phase ∧
      BlockServer.Unattended order initial source 0 phase
        (start order ephemeral none first initial).server := by
    rw [start, hstart]
    exact ⟨phase, rfl, hfinal⟩
  obtain ⟨phase', hphase, hrun⟩ := steps_unattended hfile hpath hwrites hstarted
  rw [Nat.zero_add] at hrun
  refine ⟨?_, hrun.sent_eq⟩
  rw [show run.phase = .ok phase' from hphase, Except.ok.injEq]
  exact hrun.returned_iff

/-- Five blocks and the announcement take six waits. -/
theorem fiveBlockServer_steps_alone :
    ((start .little 40000 none writableServerInput fiveBlockServer).steps .little
      (List.replicate 6 writableServerInput)).phase = .ok .returned := by
  have hserver : fiveBlockServer.ServesFile .little (List.replicate 4097 7) :=
    ⟨_, _, _, _, _, rfl⟩
  have hwrites : ∀ input ∈ List.replicate 6 writableServerInput, input.Writes := by
    intro input hmem
    rw [List.eq_of_mem_replicate hmem]
    exact ⟨rfl, rfl, rfl⟩
  have hlength : blockCount blockSize (List.replicate 4097 7) = 5 := by
    rw [blockCount, List.length_replicate, blockSize]
  refine (steps_alone hserver ?_ ?_ rfl hwrites).1.mpr ?_
  · rw [hlength]
    decide
  · decide
  · rw [hlength]
    decide

end ServerRun

end Multisync
