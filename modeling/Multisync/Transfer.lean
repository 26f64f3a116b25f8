import Mathlib.Tactic

/-!
# When the receiver of a file answers

A file comes as an announcement of its path, numbered blocks and goodbyes that
name some of its receivers, in any order and any number of times.  A record stands
for what was heard since it was made; its flag may be set from the start.  A goodbye
is answered when the file is complete by then, and a record that is complete with
its flag set, or complete and answered, is given up.
-/

namespace Multisync

/-- A message about a file; a goodbye names the receiver any number of times. -/
inductive FileMessage (α : Type*) where
  | info (path : List α)
  | block (number : ℕ)
  | goodbye (named : ℕ)
  deriving DecidableEq, Repr

/-- What was heard since the record was made, and whether its flag was set then. -/
structure Transfer (α : Type*) where
  flag : Bool
  heard : List (FileMessage α)

namespace Transfer

variable {α : Type*} (count : ℕ)

/-- The path announced last. -/
def path (heard : List (FileMessage α)) : List α :=
  heard.foldl (fun path message =>
    match message with
    | .info path => path
    | .block _ => path
    | .goodbye _ => path) []

/-- Every block was heard, and a path is known. -/
def Complete (heard : List (FileMessage α)) : Prop :=
  (∀ number < count, FileMessage.block number ∈ heard) ∧ path heard ≠ []

/-- The first message made a record with its flag set, and the last one, not
before, completed the file. -/
structure Served (entries : List (Bool × FileMessage α)) : Prop where
  flag : entries.head?.map Prod.fst = some true
  complete : Complete count (entries.map Prod.snd)
  minimal : ∀ before, before <+: entries → before ≠ entries →
    ¬ Complete count (before.map Prod.snd)

/-- Any number of records were made and given up without an answer. -/
inductive Silent : List (Bool × FileMessage α) → Prop
  | nil : Silent []
  | served {before entries : List (Bool × FileMessage α)} (hbefore : Silent before)
      (hentries : Served count entries) : Silent (before ++ entries)

/-- After records given up without an answer, one was made with its flag clear; it
was complete when a goodbye came that named the receiver. -/
def Answerable (entries : List (Bool × FileMessage α)) : Prop :=
  ∃ before heard flag named after,
    entries = before ++ heard ++ (flag, .goodbye named) :: after ∧
    Silent count before ∧ heard.head?.map Prod.fst = some false ∧
    Complete count (heard.map Prod.snd) ∧ 0 < named

variable {count} {heard : List (FileMessage α)}
  {entries : List (Bool × FileMessage α)} {entry : Bool × FileMessage α}

@[simp] theorem path_concat_info (heard : List (FileMessage α)) (new : List α) :
    path (heard ++ [.info new]) = new := by
  rw [path, List.foldl_append]
  rfl

@[simp] theorem path_concat_block (heard : List (FileMessage α)) (number : ℕ) :
    path (heard ++ [.block number]) = path heard := by
  rw [path, List.foldl_append]
  rfl

@[simp] theorem path_concat_goodbye (heard : List (FileMessage α)) (named : ℕ) :
    path (heard ++ [.goodbye named]) = path heard := by
  rw [path, List.foldl_append]
  rfl

/-- A path was announced, if it is known. -/
theorem info_path_mem (hpath : path heard ≠ []) : .info (path heard) ∈ heard := by
  induction heard using List.reverseRecOn with
  | nil => contradiction
  | append_singleton heard message ih =>
      cases message with
      | info new => simp
      | block number =>
          rw [path_concat_block] at hpath ⊢
          exact List.mem_append_left _ (ih hpath)
      | goodbye named =>
          rw [path_concat_goodbye] at hpath ⊢
          exact List.mem_append_left _ (ih hpath)

theorem complete_concat_goodbye (heard : List (FileMessage α)) (named : ℕ) :
    Complete count (heard ++ [.goodbye named]) ↔ Complete count heard := by
  simp [Complete]

theorem not_complete_nil : ¬ Complete count ([] : List (FileMessage α)) :=
  fun hcomplete => hcomplete.2 rfl

/-- More messages do not make a goodbye unanswered. -/
theorem Answerable.append (hanswerable : Answerable count entries)
    (rest : List (Bool × FileMessage α)) : Answerable count (entries ++ rest) := by
  obtain ⟨before, heard, flag, named, after, rfl, hsilent, hflag, hcomplete, hnamed⟩ :=
    hanswerable
  exact ⟨before, heard, flag, named, after ++ rest, by simp, hsilent, hflag, hcomplete,
    hnamed⟩

/-! ## The receiver as a machine -/

variable [DecidableEq α]

instance (heard : List (FileMessage α)) : Decidable (Complete count heard) :=
  inferInstanceAs (Decidable (_ ∧ _))

variable (count)

/-- How often a message is answered. -/
def answers (heard : List (FileMessage α)) : FileMessage α → ℕ
  | .info _ => 0
  | .block _ => 0
  | .goodbye named => if Complete count heard then named else 0

/-- The record after a message, unless it is given up. -/
def hear (transfer : Transfer α) (message : FileMessage α) : Option (Transfer α) :=
  if Complete count (transfer.heard ++ [message]) ∧
      (transfer.flag = true ∨ 0 < answers count transfer.heard message) then none
  else some ⟨transfer.flag, transfer.heard ++ [message]⟩

/-- The record, if there is one, and the number of answers so far. -/
structure Progress (α : Type*) where
  current : Option (Transfer α)
  answered : ℕ

/-- A message, with the flag of the record it would make. -/
def receive (progress : Progress α) (entry : Bool × FileMessage α) : Progress α :=
  let transfer := progress.current.getD ⟨entry.1, []⟩
  ⟨transfer.hear count entry.2,
    progress.answered + answers count transfer.heard entry.2⟩

def run (entries : List (Bool × FileMessage α)) : Progress α :=
  entries.foldl (receive count) ⟨none, 0⟩

variable {count}

/-- The record that stands for the messages, when it was not given up. -/
def record (entries : List (Bool × FileMessage α)) : Option (Transfer α) :=
  entries.head?.map fun first => ⟨first.1, entries.map Prod.snd⟩

theorem run_concat (entries : List (Bool × FileMessage α))
    (entry : Bool × FileMessage α) :
    run count (entries ++ [entry]) = receive count (run count entries) entry := by
  rw [run, List.foldl_append]
  rfl

/-- Only a goodbye is answered, and only when the file was complete before it. -/
theorem answers_pos {message : FileMessage α}
    (hpos : 0 < answers count heard message) :
    ∃ named, message = .goodbye named ∧ Complete count heard ∧ 0 < named := by
  cases message with
  | info new => contradiction
  | block number => contradiction
  | goodbye named =>
      unfold answers at hpos
      split_ifs at hpos with hcomplete
      · exact ⟨named, rfl, hcomplete, hpos⟩
      · contradiction

theorem answers_of_not_complete (hnot : ¬ Complete count heard)
    (message : FileMessage α) : answers count heard message = 0 := by
  by_contra hne
  obtain ⟨_, _, hcomplete, _⟩ := answers_pos (Nat.pos_of_ne_zero hne)
  exact hnot hcomplete

theorem receive_answered (answered : ℕ) :
    (receive count ⟨record entries, answered⟩ entry).answered =
      answered + answers count (entries.map Prod.snd) entry.2 := by
  cases entries <;> rfl

theorem receive_current (answered : ℕ) :
    (receive count ⟨record entries, answered⟩ entry).current =
      if Complete count ((entries ++ [entry]).map Prod.snd) ∧
        ((entries ++ [entry]).head?.map Prod.fst = some true ∨
          0 < answers count (entries.map Prod.snd) entry.2) then none
      else record (entries ++ [entry]) := by
  cases entries with
  | nil => simp [receive, record, hear]
  | cons first rest => simp [receive, record, hear]

/-- A record that is not complete is kept. -/
theorem receive_incomplete (answered : ℕ)
    (hbefore : ¬ Complete count (entries.map Prod.snd))
    (hafter : ¬ Complete count ((entries ++ [entry]).map Prod.snd)) :
    receive count ⟨record entries, answered⟩ entry =
      ⟨record (entries ++ [entry]), answered⟩ := by
  have hcurrent := @receive_current α count entries entry _ answered
  have hanswered := @receive_answered α count entries entry _ answered
  rw [if_neg fun h => hafter h.1] at hcurrent
  rw [answers_of_not_complete hbefore, Nat.add_zero] at hanswered
  exact congrArg₂ Progress.mk hcurrent hanswered

theorem answered_le_foldl (progress : Progress α)
    (entries : List (Bool × FileMessage α)) :
    progress.answered ≤ (entries.foldl (receive count) progress).answered := by
  induction entries generalizing progress with
  | nil => exact le_refl _
  | cons entry entries ih =>
      have hstep : progress.answered ≤ (receive count progress entry).answered :=
        Nat.le_add_right _ _
      exact hstep.trans (ih _)

/-- A record made with its flag set is given up once it is complete. -/
theorem Served.foldl (hserved : Served count entries) (answered : ℕ) :
    entries.foldl (receive count) ⟨none, answered⟩ = ⟨none, answered⟩ := by
  have hprefix : ∀ before, before <+: entries → before ≠ entries →
      before.foldl (receive count) ⟨none, answered⟩ = ⟨record before, answered⟩ := by
    intro before hbefore hne
    induction before using List.reverseRecOn with
    | nil => rfl
    | append_singleton before entry ih =>
        have hshorter : before <+: entries := (List.prefix_append _ _).trans hbefore
        have hne' : before ≠ entries := by
          rintro rfl
          exact absurd hbefore.length_le (by simp)
        rw [List.foldl_append, ih hshorter hne']
        exact receive_incomplete answered (hserved.minimal before hshorter hne')
          (hserved.minimal _ hbefore hne)
  have hnil : entries ≠ [] := by
    rintro rfl
    exact not_complete_nil hserved.complete
  obtain ⟨before, last, rfl⟩ := (List.eq_nil_or_concat' entries).resolve_left hnil
  have hne : before ≠ before ++ [last] := by simp
  have hbefore := hserved.minimal before (List.prefix_append _ _) hne
  have hcurrent := @receive_current α count before last _ answered
  have hanswered := @receive_answered α count before last _ answered
  rw [if_pos ⟨hserved.complete, Or.inl hserved.flag⟩] at hcurrent
  rw [answers_of_not_complete hbefore, Nat.add_zero] at hanswered
  rw [List.foldl_append, hprefix before (List.prefix_append _ _) hne]
  exact congrArg₂ Progress.mk hcurrent hanswered

theorem Silent.run (hsilent : Silent count entries) : run count entries = ⟨none, 0⟩ := by
  induction hsilent with
  | nil => rfl
  | served hbefore hentries ih =>
      rw [Transfer.run, List.foldl_append, ← Transfer.run, ih, hentries.foldl]

/-- A record made with its flag clear is kept until it is answered. -/
theorem kept_or_answered (hflag : entries.head?.map Prod.fst ≠ some true) :
    0 < (run count entries).answered ∨ run count entries = ⟨record entries, 0⟩ := by
  induction entries using List.reverseRecOn with
  | nil => exact Or.inr rfl
  | append_singleton entries entry ih =>
      have hflag' : entries.head?.map Prod.fst ≠ some true := by
        cases entries with
        | nil => simp
        | cons first rest => simpa using hflag
      rw [run_concat]
      rcases ih hflag' with hanswered | hrun
      · exact Or.inl (hanswered.trans_le (Nat.le_add_right _ _))
      · rw [hrun]
        have hcurrent := @receive_current α count entries entry _ 0
        have hanswered := @receive_answered α count entries entry _ 0
        by_cases hpos : 0 < answers count (entries.map Prod.snd) entry.2
        · exact Or.inl (hanswered ▸ by omega)
        · rw [if_neg fun h => h.2.elim hflag hpos] at hcurrent
          refine Or.inr (congrArg₂ Progress.mk hcurrent (hanswered.trans ?_))
          omega

/-- Without an answerable goodbye the last record stands for what was heard since
the others were given up. -/
theorem answerable_or_record (entries : List (Bool × FileMessage α)) :
    Answerable count entries ∨ ∃ before heard, entries = before ++ heard ∧
      Silent count before ∧ run count entries = ⟨record heard, 0⟩ ∧
      (heard.head?.map Prod.fst = some true → ∀ first, first <+: heard →
        ¬ Complete count (first.map Prod.snd)) := by
  induction entries using List.reverseRecOn with
  | nil => exact Or.inr ⟨[], [], rfl, .nil, rfl, by simp⟩
  | append_singleton entries entry ih =>
      rcases ih with hanswerable | ⟨before, heard, rfl, hsilent, hrun, hincomplete⟩
      · exact Or.inl (hanswerable.append _)
      have hshorter : (heard ++ [entry]).head?.map Prod.fst = some true →
          ∀ first, first <+: heard → ¬ Complete count (first.map Prod.snd) := by
        intro hflag first hfirst
        cases heard with
        | nil =>
            rw [List.prefix_nil.mp hfirst]
            exact not_complete_nil
        | cons head rest => exact hincomplete (by simpa using hflag) first hfirst
      have hcurrent := @receive_current α count heard entry _ 0
      have hanswered := @receive_answered α count heard entry _ 0
      by_cases hpos : 0 < answers count (heard.map Prod.snd) entry.2
      · left
        obtain ⟨named, hentry, hcomplete, hnamed⟩ := answers_pos hpos
        refine ⟨before, heard, entry.1, named, [], ?_, hsilent, ?_, hcomplete, hnamed⟩
        · rw [← hentry]
        · cases heard with
          | nil => exact absurd hcomplete not_complete_nil
          | cons head rest =>
              cases hflag : head.1 with
              | false => simp [hflag]
              | true =>
                  exact absurd hcomplete
                    (hincomplete (by simp [hflag]) _ (List.prefix_refl _))
      · right
        have hzero : answers count (heard.map Prod.snd) entry.2 = 0 := by omega
        rw [hzero] at hcurrent hanswered
        rw [run_concat, hrun]
        by_cases hgiven : Complete count ((heard ++ [entry]).map Prod.snd) ∧
            (heard ++ [entry]).head?.map Prod.fst = some true
        · rw [if_pos ⟨hgiven.1, Or.inl hgiven.2⟩] at hcurrent
          refine ⟨before ++ (heard ++ [entry]), [], by simp, ?_,
            congrArg₂ Progress.mk hcurrent hanswered, by simp⟩
          apply hsilent.served
          refine ⟨hgiven.2, hgiven.1, fun first hfirst hne => ?_⟩
          rcases List.prefix_concat_iff.mp hfirst with heq | hprefix
          · exact absurd heq hne
          · exact hshorter hgiven.2 first hprefix
        · have hkept : ¬ (Complete count ((heard ++ [entry]).map Prod.snd) ∧
              ((heard ++ [entry]).head?.map Prod.fst = some true ∨ 0 < 0)) :=
            fun h => hgiven ⟨h.1, h.2.resolve_right (lt_irrefl 0)⟩
          rw [if_neg hkept] at hcurrent
          refine ⟨before, heard ++ [entry], by simp, hsilent,
            congrArg₂ Progress.mk hcurrent hanswered, fun hflag first hfirst => ?_⟩
          rcases List.prefix_concat_iff.mp hfirst with heq | hprefix
          · rw [heq]
            exact fun hcomplete => hgiven ⟨hcomplete, hflag⟩
          · exact hshorter hflag first hprefix

/-- A run of messages is answered exactly when one of its goodbyes can be. -/
theorem answered_pos_iff (entries : List (Bool × FileMessage α)) :
    0 < (run count entries).answered ↔ Answerable count entries := by
  constructor
  · intro hpos
    rcases answerable_or_record entries with hanswerable | ⟨_, _, _, _, hrun, _⟩
    · exact hanswerable
    · rw [hrun] at hpos
      contradiction
  · rintro ⟨before, heard, flag, named, after, rfl, hsilent, hflag, hcomplete, hnamed⟩
    have hkept := @kept_or_answered α count heard _ (by rw [hflag]; simp)
    have hbefore : run count (before ++ heard) = run count heard := by
      rw [run, List.foldl_append, ← run, hsilent.run, ← run]
    rw [run, List.foldl_append, ← run, hbefore]
    refine lt_of_lt_of_le ?_ (answered_le_foldl (receive count (run count heard)
      (flag, .goodbye named)) after)
    rcases hkept with hpos | hrun
    · exact hpos.trans_le (Nat.le_add_right _ _)
    · rw [hrun, receive_answered, answers, if_pos hcomplete]
      omega

end Transfer

end Multisync
