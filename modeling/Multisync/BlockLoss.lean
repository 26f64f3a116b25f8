import Multisync.Addressing
import Multisync.ServerPosts
import Mathlib.Tactic

/-!
# Which blocks does the server skip?

The first loop goes on to the next number whether or not there was room in the queue
for the block.  So the blocks that were sent when `start` returns are those whose turn
came while fewer than five messages were queued.
-/

namespace Multisync

open ByteLayout Effects

/-- The number of the block that a datagram carries, if it carries one. -/
def blockNumber? (order : ByteOrder) (datagram : Bytes) : Option ℕ :=
  let message := Message.received datagram.length datagram
  if message.getType order = MessageType.block.code then
    (message.getMetadata order BlockInfo).toOption.map fun i => (i.getBlock order).toNat
  else none

theorem Message.received_self (datagram : Bytes) :
    (Message.received datagram.length datagram).buffer = datagram :=
  List.take_of_length_le (Nat.le_add_right _ _)

/-- A block with this number was posted. -/
def Posted (posts : List Post) (number : ℕ) : Prop :=
  ∃ payload, .block number payload ∈ posts

theorem posted_append_infos {posts infos : List Post} (hinfos : ∀ post ∈ infos, post = .info)
    (number : ℕ) : Posted (posts ++ infos) number ↔ Posted posts number := by
  constructor
  · rintro ⟨payload, hmem⟩
    rcases List.mem_append.mp hmem with hold | hnew
    · exact ⟨payload, hold⟩
    · cases hinfos _ hnew
  · rintro ⟨payload, hmem⟩
    exact ⟨payload, List.mem_append_left _ hmem⟩

theorem posted_append_block (posts : List Post) (other : ℕ) (payload : Bytes)
    (number : ℕ) :
    Posted (posts ++ [.block other payload]) number ↔
      Posted posts number ∨ number = other := by
  constructor
  · rintro ⟨data, hmem⟩
    rcases List.mem_append.mp hmem with hold | hnew
    · exact Or.inl ⟨data, hold⟩
    · cases List.mem_singleton.mp hnew
      exact Or.inr rfl
  · rintro (⟨data, hmem⟩ | rfl)
    · exact ⟨data, List.mem_append_left _ hmem⟩
    · exact ⟨payload, List.mem_append_right _ (List.mem_singleton.mpr rfl)⟩

namespace ServerRun

variable (order : ByteOrder)

/-- The wait of the first loop ends with fewer than five messages in the queue, if
there is a block left. -/
def HasRoom (run : ServerRun) (input : ServerInput) : Prop :=
  ∀ i server, run.phase = .ok (.serving i) →
    BlockServer.endpoint.Wakes input.ready run.server →
    BlockServer.select order input run.server = .ok () server →
    (i.succ order).getBlock order < server.fileInfo.getBlockCount order →
    server.messageQueue.length < 5

/-- Each wait of a run ends with room. -/
def KeepsRoom : ServerRun → List ServerInput → Prop
  | _, [] => True
  | run, input :: inputs => HasRoom order run input ∧ KeepsRoom (run.step order input) inputs

/-- A block with this number was sent. -/
def SentBlock (run : ServerRun) (number : ℕ) : Prop :=
  ∃ datagram ∈ run.server.socket.sent, blockNumber? order datagram.2 = some number

instance (run : ServerRun) (number : ℕ) : Decidable (run.SentBlock order number) :=
  inferInstanceAs (Decidable (∃ _ ∈ _, _))

end ServerRun

/-! ## What was sent -/

namespace BlockServer

variable {order : ByteOrder} {initial server : BlockServer} {posts : List Post}

theorem blockNumber?_render_info :
    blockNumber? order (initial.render order .info) = none := by
  have hform := (infoMessage_wireForm order initial).of_buffer
    (Message.received_self (initial.render order .info))
  rw [blockNumber?, hform.getType order]
  rfl

theorem blockNumber?_render_block {number : ℕ} (hlt : number < 2 ^ 32) {payload : Bytes}
    (hpayload : payload.length ≤ blockSize) :
    blockNumber? order (initial.render order (.block number payload)) = some number := by
  have hform := (@blockMessage_wireForm order initial.id
    (initial.fileInfo.blockAt order number) payload hpayload).of_buffer
    (Message.received_self (initial.render order (.block number payload)))
  have hmetadata := hform.getMetadata (M := BlockInfo) order
  rw [BlockInfo.load_store] at hmetadata
  simp only [blockNumber?, hform.getType order, if_true, hmetadata, Except.toOption,
    Option.map_some, FileInfo.getBlock_blockAt order initial.fileInfo hlt]

/-- With an empty queue, the blocks that were sent are those that were posted. -/
theorem Serves.sentBlock_iff (hserves : Serves order initial posts server)
    (hempty : server.messageQueue = [])
    (hbound : ∀ number, Posted posts number → number < 2 ^ 32) (phase) (number : ℕ) :
    ServerRun.SentBlock order ⟨server, phase⟩ number ↔ Posted posts number := by
  have hsent : server.socket.sent.map Prod.snd = posts.map (initial.render order) := by
    have hposted := hserves.posted
    rwa [BlockServer.posted, hempty, List.map_nil, List.append_nil] at hposted
  constructor
  · rintro ⟨datagram, hmem, hnumber⟩
    have hbytes := List.mem_map_of_mem (f := Prod.snd) hmem
    rw [hsent] at hbytes
    obtain ⟨post, hpost, hrender⟩ := List.mem_map.mp hbytes
    rw [← hrender] at hnumber
    cases post with
    | info =>
        rw [blockNumber?_render_info] at hnumber
        contradiction
    | block other payload =>
        rw [blockNumber?_render_block (hbound other ⟨payload, hpost⟩)
          (hserves.payloads other payload hpost)] at hnumber
        cases hnumber
        exact ⟨payload, hpost⟩
  · rintro ⟨payload, hpost⟩
    have hbytes := List.mem_map_of_mem (f := initial.render order) hpost
    rw [← hsent] at hbytes
    obtain ⟨datagram, hmem, hdatagram⟩ := List.mem_map.mp hbytes
    refine ⟨datagram, hmem, ?_⟩
    rw [hdatagram]
    exact blockNumber?_render_block (hbound number ⟨payload, hpost⟩)
      (hserves.payloads number payload hpost)

/-- The number of the block whose turn comes next. -/
inductive NextBlock (order : ByteOrder) (initial : BlockServer) : ServerPhase → ℕ → Prop
  | serving (number : ℕ) (hlt : number < (initial.fileInfo.getBlockCount order).toNat) :
      NextBlock order initial (.serving (initial.fileInfo.blockAt order number))
        (number + 1)
  | draining :
      NextBlock order initial .draining (initial.fileInfo.getBlockCount order).toNat
  | returned :
      NextBlock order initial .returned (initial.fileInfo.getBlockCount order).toNat

/-- Where a run waits: what was posted, all of it before the next block. -/
structure Turn (order : ByteOrder) (initial : BlockServer) (posts : List Post) (next : ℕ)
    (phase : ServerPhase) (server : BlockServer) : Prop where
  serves : Serves order initial posts server
  turn : NextBlock order initial phase next
  below : ∀ number, Posted posts number → number < next
  idle : phase = .returned → server.messageQueue = []

/-- From one turn to the next the posts before the first stay, and the block between
the two is posted if there was room. -/
structure Advance (next next' : ℕ) (posts posts' : List Post) (room : Prop) : Prop where
  le : next ≤ next'
  before : ∀ number < next, Posted posts' number ↔ Posted posts number
  between : (∀ number, next ≤ number → number < next' → Posted posts' number) ↔ room

theorem Advance.trans {posts posts' posts'' : List Post} {first second last : ℕ}
    {room rooms : Prop} (hfirst : Advance first second posts posts' room)
    (hrest : Advance second last posts' posts'' rooms) :
    Advance first last posts posts'' (room ∧ rooms) := by
  refine ⟨hfirst.le.trans hrest.le, fun number hlt => ?_, ?_⟩
  · rw [hrest.before number (hlt.trans_le hfirst.le), hfirst.before number hlt]
  · rw [← hfirst.between, ← hrest.between]
    constructor
    · refine fun hall => ⟨fun number hge hlt => ?_, fun number hge hlt => ?_⟩
      · exact (hrest.before number hlt).mp (hall number hge (hlt.trans_le hrest.le))
      · exact hall number (hfirst.le.trans hge) hlt
    · rintro ⟨hbetween, hafter⟩ number hge hlt
      rcases Nat.lt_or_ge number second with hbefore | hlater
      · exact (hrest.before number hbefore).mpr (hbetween number hge hbefore)
      · exact hafter number hlater hlt

theorem HeadStep.turn {readError : Bool} {number : ℕ} {phase : ServerPhase}
    {final : BlockServer} {posts' : List Post}
    (hserver : Serves order initial posts server)
    (hle : number ≤ (initial.fileInfo.getBlockCount order).toNat)
    (hbelow : ∀ other, Posted posts other → other < number)
    (hstep : HeadStep order readError number posts server phase final posts')
    (hfinal : Serves order initial posts' final) :
    ∃ next, Turn order initial posts' next phase final ∧
      Advance number next posts posts' (number <
        (initial.fileInfo.getBlockCount order).toNat → server.messageQueue.length < 5) := by
  have hfile := hserver.fileInfo
  cases hstep with
  | posted hcount hroom hread =>
      rw [hfile] at hcount
      refine ⟨number + 1, ⟨hfinal, ?_, ?_, fun h => by contradiction⟩, by omega, ?_, ?_⟩
      · rw [hfile]
        exact .serving number hcount
      · intro other hother
        rcases (posted_append_block _ _ _ _).mp hother with hold | rfl
        · exact Nat.lt_succ_of_lt (hbelow other hold)
        · exact Nat.lt_succ_self _
      · intro other hlt
        rw [posted_append_block]
        exact ⟨fun h => h.resolve_right (by omega), Or.inl⟩
      · refine ⟨fun _ _ => hroom, fun _ other hge hlt => ?_⟩
        rw [posted_append_block]
        exact Or.inr (by omega)
  | skipped hcount hfull =>
      rw [hfile] at hcount
      refine ⟨number + 1, ⟨hfinal, ?_, ?_, fun h => by contradiction⟩, by omega,
        fun _ _ => Iff.rfl, ?_⟩
      · rw [hfile]
        exact .serving number hcount
      · exact fun other hother => Nat.lt_succ_of_lt (hbelow other hother)
      · refine ⟨fun hall => ?_, fun hroom => absurd (hroom hcount) hfull⟩
        exact absurd (hbelow number (hall number (le_refl _) (Nat.lt_succ_self _)))
          (lt_irrefl _)
  | drained hdone =>
      rw [hfile] at hdone
      have hnumber : number = (initial.fileInfo.getBlockCount order).toNat := by omega
      subst hnumber
      refine ⟨_, ⟨hfinal, .draining, hbelow, fun h => by contradiction⟩, le_refl _,
        fun _ _ => Iff.rfl, ?_⟩
      exact ⟨fun _ hlt => absurd hlt hdone, fun _ _ hge hlt => by omega⟩
  | returned hdone hempty =>
      rw [hfile] at hdone
      have hnumber : number = (initial.fileInfo.getBlockCount order).toNat := by omega
      subst hnumber
      refine ⟨_, ⟨hfinal, .returned, hbelow, fun _ => hempty⟩, le_refl _,
        fun _ _ => Iff.rfl, ?_⟩
      exact ⟨fun _ hlt => absurd hlt hdone, fun _ _ hge hlt => by omega⟩

/-- One wait, from where a run waits to where it waits next. -/
theorem resume_turn {input : ServerInput} {next : ℕ} {phase phase' : ServerPhase}
    {final : BlockServer} (hturn : Turn order initial posts next phase server)
    (hwakes : endpoint.Wakes input.ready server)
    (hok : resume order input phase server = .ok phase' final) :
    ∃ posts' next', Turn order initial posts' next' phase' final ∧
      Advance next next' posts posts'
        (ServerRun.HasRoom order ⟨server, .ok phase⟩ input) := by
  obtain ⟨hserves, hnext, hbelow, hidle⟩ := hturn
  cases hnext with
  | serving number hlt =>
      rw [← hserves.fileInfo] at hlt hok
      obtain ⟨mid, infos, posts', hselect, hinfos, hmid, _, hstep, hfinal⟩ :=
        resume_serving_step hserves hlt hok
      rw [hserves.fileInfo] at hlt
      have hbelow' : ∀ other, Posted (posts ++ infos) other → other < number + 1 :=
        fun other hother => hbelow other ((posted_append_infos hinfos other).mp hother)
      obtain ⟨next', hturn, hadvance⟩ := hstep.turn hmid hlt hbelow' hfinal
      have hcount := (initial.fileInfo.getBlockCount order).toNat_lt
      have hroom : ServerRun.HasRoom order
          ⟨server, .ok (.serving (initial.fileInfo.blockAt order number))⟩ input ↔
          (number + 1 < (initial.fileInfo.getBlockCount order).toNat →
            mid.messageQueue.length < 5) := by
        constructor
        · intro hroom hless
          apply hroom _ mid rfl hwakes hselect
          rw [FileInfo.succ_blockAt, hmid.fileInfo, UInt32.lt_iff_toNat_lt,
            FileInfo.getBlock_blockAt _ _ (by omega)]
          exact hless
        · intro hroom i other hphase _ hother hless
          cases hphase
          cases hselect.symm.trans hother
          rw [FileInfo.succ_blockAt, hmid.fileInfo, UInt32.lt_iff_toNat_lt,
            FileInfo.getBlock_blockAt _ _ (by omega)] at hless
          exact hroom hless
      refine ⟨posts', next', hturn, hadvance.le, fun other hother => ?_, ?_⟩
      · rw [hadvance.before other hother, posted_append_infos hinfos]
      · rw [hadvance.between, hroom]
  | draining =>
      obtain ⟨infos, hinfos, hfinal, _, hphase⟩ := resume_draining_step hserves hok
      have hposted : ∀ other, Posted (posts ++ infos) other ↔ Posted posts other :=
        posted_append_infos hinfos
      have hroom : ServerRun.HasRoom order ⟨server, .ok .draining⟩ input :=
        fun _ _ hphase => by cases hphase
      refine ⟨posts ++ infos, _, ⟨hfinal, ?_, ?_, ?_⟩, le_refl _,
        fun other _ => hposted other, fun _ => hroom, fun _ _ hge hlt => by omega⟩
      · rcases hphase with rfl | ⟨rfl, _⟩
        · exact .draining
        · exact .returned
      · exact fun other hother => hbelow other ((hposted other).mp hother)
      · rintro rfl
        simpa using hphase
  | returned =>
      cases hok
      have hroom : ServerRun.HasRoom order ⟨server, .ok .returned⟩ input :=
        fun _ _ hphase => by cases hphase
      exact ⟨posts, _, ⟨hserves, .returned, hbelow, hidle⟩, le_refl _,
        fun _ _ => Iff.rfl, fun _ => hroom, fun _ _ hge hlt => by omega⟩

end BlockServer

namespace ServerRun

variable {order : ByteOrder} {initial : BlockServer} {run : ServerRun}

theorem step_returns {input : ServerInput} {inputs : List ServerInput}
    {phase : ServerPhase} (hphase : (run.steps order (input :: inputs)).phase = .ok phase) :
    ∃ phase', (run.step order input).phase = .ok phase' := by
  cases hstep : (run.step order input).phase with
  | ok phase' => exact ⟨phase', rfl⟩
  | error fault =>
      rw [steps, List.foldl_cons] at hphase
      have hsteps : ((run.step order input).steps order inputs).phase = .ok phase := hphase
      rw [steps_of_error hstep, hstep] at hsteps
      contradiction

theorem step_turn {posts : List Post} {next : ℕ} {phase phase' : ServerPhase}
    {input : ServerInput} (hphase : run.phase = .ok phase)
    (hturn : BlockServer.Turn order initial posts next phase run.server)
    (hphase' : (run.step order input).phase = .ok phase') :
    ∃ posts' next',
      BlockServer.Turn order initial posts' next' phase' (run.step order input).server ∧
      BlockServer.Advance next next' posts posts' (HasRoom order run input) := by
  obtain ⟨server, current⟩ := run
  cases hphase
  by_cases hwakes : BlockServer.endpoint.Wakes input.ready server
  · have hstep : step order ⟨server, .ok phase⟩ input =
        ofResult (BlockServer.resume order input phase server) := by
      simp only [step, hwakes, if_true]
    rw [hstep] at hphase' ⊢
    cases hresume : BlockServer.resume order input phase server with
    | error fault final =>
        rw [hresume] at hphase'
        cases hphase'
    | ok phase'' final =>
        rw [hresume] at hphase'
        cases hphase'
        exact BlockServer.resume_turn hturn hwakes hresume
  · have hstep : step order ⟨server, .ok phase⟩ input = ⟨server, .ok phase⟩ := by
      simp only [step, hwakes, if_false]
    rw [hstep] at hphase' ⊢
    cases hphase'
    have hroom : HasRoom order ⟨server, .ok phase⟩ input :=
      fun _ _ _ hwakes' => absurd hwakes' hwakes
    exact ⟨posts, next, hturn, le_refl _, fun _ _ => Iff.rfl, fun _ => hroom,
      fun _ _ hge hlt => by omega⟩

/-- The blocks that come after the next are all posted if each wait ends with room. -/
theorem steps_posted {posts : List Post} {next : ℕ} {phase : ServerPhase}
    (hphase : run.phase = .ok phase)
    (hturn : BlockServer.Turn order initial posts next phase run.server)
    {inputs : List ServerInput}
    (hreturned : (run.steps order inputs).phase = .ok .returned) :
    ∃ posts', BlockServer.Turn order initial posts'
        (initial.fileInfo.getBlockCount order).toNat .returned
        (run.steps order inputs).server ∧
      BlockServer.Advance next (initial.fileInfo.getBlockCount order).toNat posts posts'
        (KeepsRoom order run inputs) := by
  induction inputs generalizing run posts next phase with
  | nil =>
      have hreturns : run.phase = .ok .returned := hreturned
      cases hphase.symm.trans hreturns
      have hnext := hturn.turn
      cases hnext
      exact ⟨posts, hturn, le_refl _, fun _ _ => Iff.rfl, fun _ => trivial,
        fun _ _ hge hlt => by omega⟩
  | cons input inputs ih =>
      obtain ⟨phase', hphase'⟩ := step_returns hreturned
      obtain ⟨posts', next', hturn', hadvance⟩ := step_turn hphase hturn hphase'
      obtain ⟨posts'', hturn'', hadvance'⟩ := ih hphase' hturn' hreturned
      exact ⟨posts'', hturn'', hadvance.trans hadvance'⟩

/-- The blocks of the file were all sent when `start` returns, if there was room for
each when its turn came, and only then. -/
theorem all_sent_iff {md5 : Bytes → Md5Digest} {opened : Option Bytes}
    {measured : Option FileSource} {path : Bytes} {group : UInt32} {port : UInt16}
    {id : UInt32} {ephemeral : UInt16} {openError : Option String} {first : ServerInput}
    {inputs : List ServerInput} {server : BlockServer}
    (hserver : server = BlockServer.create order md5 opened measured path group port id)
    (hreturned : ((ServerRun.start order ephemeral openError first server).steps order
      inputs).phase = .ok .returned) :
    (∀ number < (server.fileInfo.getBlockCount order).toNat,
      ((ServerRun.start order ephemeral openError first server).steps order
        inputs).SentBlock order number) ↔
    KeepsRoom order (ServerRun.start order ephemeral openError first server) inputs := by
  have hfresh : BlockServer.Serves order server [] server := by
    subst hserver
    exact .fresh rfl rfl
  cases hstart : BlockServer.start order ephemeral openError first server with
  | error fault final =>
      rw [start, hstart] at hreturned
      rw [steps_of_error rfl] at hreturned
      contradiction
  | ok phase final =>
      obtain ⟨mid, posts, hmid, _, hqueue, hstep, hfinal⟩ :=
        BlockServer.start_step hfresh hstart
      obtain ⟨next, hturn, hadvance⟩ := hstep.turn hmid (Nat.zero_le _)
        (by rintro other ⟨payload, hmem⟩; simp at hmem) hfinal
      have hroom : mid.messageQueue.length < 5 := by
        subst hserver
        simp [hqueue, BlockServer.create]
      have hrun : ServerRun.start order ephemeral openError first server =
          ⟨final, .ok phase⟩ := by
        rw [start, hstart]
        rfl
      rw [hrun] at hreturned ⊢
      obtain ⟨posts', hturn', hadvance'⟩ := steps_posted rfl hturn hreturned
      have hall := (hadvance.trans hadvance').between
      have hbound := (server.fileInfo.getBlockCount order).toNat_lt
      have hsent : ∀ number, SentBlock order
          ((⟨final, .ok phase⟩ : ServerRun).steps order inputs) number ↔
            Posted posts' number := fun number =>
        hturn'.serves.sentBlock_iff (hturn'.idle rfl)
          (fun other hother => (hturn'.below other hother).trans hbound) _ number
      simp only [hsent]
      constructor
      · exact fun hposted => (hall.mp fun number _ hlt => hposted number hlt).2
      · exact fun hkeeps number hlt =>
          hall.mpr ⟨fun _ => hroom, hkeeps⟩ number (Nat.zero_le _) hlt

end ServerRun

/-- A server of five blocks. -/
def fiveBlockServer : BlockServer :=
  BlockServer.create .little (fun _ => zeroDigest)
    (some (List.replicate 4097 7)) (some (.regular (List.replicate 4097 7))) [97] 0 9000 9

/-- A message of no type that the server knows can be read, and nothing can be sent. -/
def noiseInput : ServerInput where
  ready := .ok ⟨true, false⟩
  arrival := .ok (⟨1, 2⟩, (Message.bare .little 7 99).buffer)
  sendError := none
  getblockError := false
  readError := false
  error := ""

/-- Four such messages arrive before the socket can be written. -/
def noisyInputs : List ServerInput :=
  List.replicate 4 noiseInput ++ List.replicate 5 writableServerInput

theorem noisyInputs_return :
    ((ServerRun.start .little 40000 none writableServerInput fiveBlockServer).steps .little
      noisyInputs).phase = .ok .returned := by
  decide +kernel

theorem noisyInputs_all_sent_iff :
    (∀ number < (fiveBlockServer.fileInfo.getBlockCount .little).toNat,
      ((ServerRun.start .little 40000 none writableServerInput fiveBlockServer).steps
        .little noisyInputs).SentBlock .little number) ↔
    ServerRun.KeepsRoom .little
      (ServerRun.start .little 40000 none writableServerInput fiveBlockServer)
      noisyInputs :=
  ServerRun.all_sent_iff rfl noisyInputs_return

/-- `start` returns, and block 4 was never sent. -/
theorem noisyInputs_not_all_sent :
    ((ServerRun.start .little 40000 none writableServerInput fiveBlockServer).steps .little
      noisyInputs).phase = .ok .returned ∧
    ¬ ∀ number < (fiveBlockServer.fileInfo.getBlockCount .little).toNat,
      ((ServerRun.start .little 40000 none writableServerInput fiveBlockServer).steps
        .little noisyInputs).SentBlock .little number := by
  refine ⟨noisyInputs_return, fun hall => ?_⟩
  have hcount : 4 < (fiveBlockServer.fileInfo.getBlockCount .little).toNat := by
    decide +kernel
  have hlost : ¬ ((ServerRun.start .little 40000 none writableServerInput
      fiveBlockServer).steps .little noisyInputs).SentBlock .little 4 := by
    decide +kernel
  exact hlost (hall 4 hcount)

end Multisync
