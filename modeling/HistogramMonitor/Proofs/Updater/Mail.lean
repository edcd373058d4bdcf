import HistogramMonitor.Proofs.Composition
import HistogramMonitor.Proofs.Transport.Calls

/-!
# The mail of a worker

What arrives in a mailbox, and what its senders learn.

* An open mailbox keeps every message, in the order of their sending, and tells each sender of a plot the
  number of plots before it (`postAll_of_receiving`); a closed one refuses them all (`postAll_of_closed`).
* Whatever a worker does between two looks into its mailbox, all that happens to the mailbox meanwhile is that
  messages are put into it (`Built.posts`).
-/

namespace HistogramMonitor

/-! ## Messages and commands -/

/-- The command that a message carries. -/
def Message.command? : Message → Option Command
  | .request c => some c
  | .shutdown => none

/-- The commands among messages. -/
def commands (msgs : List Message) : List Command := msgs.filterMap Message.command?

@[simp] theorem commands_nil : commands [] = [] := rfl

@[simp] theorem commands_append (msgs more : List Message) :
    commands (msgs ++ more) = commands msgs ++ commands more :=
  List.filterMap_append

@[simp] theorem commands_map_request (cs : List Command) : commands (cs.map .request) = cs := by
  rw [commands, List.filterMap_map]
  exact List.filterMap_some

/-- Whether a command registers a plot. -/
def Command.adds : Command → Bool
  | .addPlot _ => true
  | _ => false

/-- How many plots commands register. -/
def additions (cs : List Command) : Nat := cs.countP Command.adds

@[simp] theorem additions_nil : additions [] = 0 := rfl

@[simp] theorem additions_append (cs more : List Command) :
    additions (cs ++ more) = additions cs + additions more :=
  List.countP_append

theorem additions_cons (c : Command) (cs : List Command) :
    additions (c :: cs) = c.adds.toNat + additions cs := by
  rw [additions, List.countP_cons, Nat.add_comm]
  cases c.adds <;> rfl

/-- What the sender of a command learns where `n` plots are registered or about to be. -/
def Command.answer (n : Nat) (c : Command) : SendResult := if c.adds then .added n else .accepted

/-- What the senders of commands learn that arrive one after the other. -/
def answers : Nat → List Command → List Sending
  | _, [] => []
  | n, c :: rest => ⟨c, c.answer n⟩ :: answers (n + c.adds.toNat) rest

@[simp] theorem answers_nil (n : Nat) : answers n [] = [] := rfl

theorem answers_append (cs more : List Command) :
    ∀ n, answers n (cs ++ more) = answers n cs ++ answers (n + additions cs) more := by
  induction cs with
  | nil => exact fun n => rfl
  | cons c cs ih =>
    intro n
    rw [additions_cons, ← Nat.add_assoc]
    exact congrArg (_ :: ·) (ih _)

/-- Every sender sent what it sent. -/
@[simp] theorem map_command_answers (cs : List Command) : ∀ n, (answers n cs).map Sending.command = cs := by
  induction cs with
  | nil => exact fun n => rfl
  | cons c cs ih => exact fun n => congrArg (c :: ·) (ih _)

/-- Whether the worker was still there. -/
def Sending.taken (s : Sending) : Bool := decide (s.result ≠ .refused)

theorem taken_of_mem_answers {cs : List Command} : ∀ {n : Nat}, ∀ s ∈ answers n cs, s.taken := by
  induction cs with
  | nil => exact fun s hs => nomatch hs
  | cons c cs ih =>
    refine fun {n} => List.forall_mem_cons.mpr ⟨?_, ih⟩
    unfold Sending.taken Command.answer
    cases c.adds <;> rfl

/-- What was sent to the worker by events. -/
def sendings (es : List Event) : List Sending := es.filterMap Event.sending?

@[simp] theorem sendings_append (es fs : List Event) : sendings (es ++ fs) = sendings es ++ sendings fs :=
  List.filterMap_append

/-! ## The mailbox -/

namespace Mailbox

variable {m : Mailbox}

theorem send_of_receiving (h : m.receiving) (c : Command) :
    m.send c = ({ m with
      queue := m.queue ++ [.request c], plotCount := m.plotCount + c.adds.toNat }, c.answer m.plotCount) := by
  unfold send
  rw [if_pos h]
  cases c <;> rfl

theorem send_of_closed (h : m.receiving = false) (c : Command) : m.send c = (m, .refused) := by
  unfold send
  rw [if_neg fun hopen => Bool.false_ne_true (h.symm.trans hopen)]

/-- An open mailbox keeps all messages, in their order. -/
theorem postAll_of_receiving (h : m.receiving) (msgs : List Message) : m.postAll msgs =
    ({ m with queue := m.queue ++ msgs, plotCount := m.plotCount + additions (commands msgs) },
      answers m.plotCount (commands msgs)) := by
  induction msgs generalizing m with
  | nil => simp [postAll]
  | cons msg msgs ih =>
    cases msg with
    | request c =>
      have hsend : m.post (.request c) = ({ m with
          queue := m.queue ++ [.request c], plotCount := m.plotCount + c.adds.toNat },
          [⟨c, c.answer m.plotCount⟩]) := by
        simp only [post, send_of_receiving h]
      have hcommands : commands (.request c :: msgs) = c :: commands msgs := rfl
      rw [postAll, hsend]
      dsimp only
      rw [ih (by exact h), hcommands, additions_cons, List.append_assoc, Nat.add_assoc]
      rfl
    | shutdown =>
      have hpost : m.post .shutdown = ({ m with queue := m.queue ++ [.shutdown] }, []) := by
        simp only [post, if_pos h]
      rw [postAll, hpost]
      dsimp only
      rw [ih (by exact h), List.append_assoc]
      rfl

/-- A closed mailbox refuses all messages. -/
theorem postAll_of_closed (h : m.receiving = false) (msgs : List Message) :
    m.postAll msgs = (m, (commands msgs).map fun c => ⟨c, .refused⟩) := by
  induction msgs with
  | nil => rfl
  | cons msg msgs ih =>
    have hpost : m.post msg = (m, (commands [msg]).map fun c => ⟨c, .refused⟩) := by
      cases msg with
      | request c => simp only [post, send_of_closed h]; rfl
      | shutdown => simp only [post, h]; rfl
    rw [postAll, hpost]
    dsimp only
    rw [ih, ← List.map_append, ← commands_append]
    rfl

theorem postAll_append (msgs more : List Message) : ∀ m : Mailbox, m.postAll (msgs ++ more) =
    (((m.postAll msgs).1.postAll more).1, (m.postAll msgs).2 ++ ((m.postAll msgs).1.postAll more).2) := by
  induction msgs with
  | nil => exact fun m => rfl
  | cons msg msgs ih =>
    intro m
    simp only [List.cons_append, postAll, ih, List.append_assoc]

/-- One message. -/
theorem postAll_singleton (msg : Message) (m : Mailbox) : m.postAll [msg] = m.post msg := by
  simp only [postAll, List.append_nil]

end Mailbox

/-! ## What arrives while a worker works -/

namespace Action

variable {β α : Type} {w : Surroundings β} {meanwhile : β → Call → List Message}

/-- Whatever desk it starts at, all that the action does to the mailbox is to let messages into it, and its
events say what their senders learn. -/
def Posts (x : Action (Desk β) α) : Prop :=
  ∀ d, ∃ msgs, ((x d).next.mailbox, sendings (x d).events) = d.mailbox.postAll msgs

theorem posts_call (c : Call) : (call (w.withMail meanwhile) c).Posts := by
  intro d
  refine ⟨meanwhile d.outside c, ?_⟩
  have hquiet : ∀ lines : List LogLine, sendings (lines.map .log) = [] := by
    intro lines
    refine List.filterMap_eq_nil_iff.mpr fun e he => ?_
    obtain ⟨-, -, rfl⟩ := List.mem_map.mp he
    rfl
  have hsent : ∀ sent : List Sending, sendings (sent.map .sent) = sent := by
    intro sent
    rw [sendings, List.filterMap_map]
    exact List.filterMap_some
  have hevents : sendings (call (w.withMail meanwhile) c d).events =
      ((w.withMail meanwhile).answer d c).sendings := by
    rw [call_events]
    change sendings (_ ++ _) = _
    rw [sendings_append, hquiet, hsent, List.nil_append]
  rw [call_next, hevents]
  rfl

/-- **Whatever a worker does**, its mailbox is changed from outside only. -/
theorem Built.posts {x : Action (Desk β) α} (h : Built (w.withMail meanwhile) x) : x.Posts := by
  induction h with
  | pure a => exact fun d => ⟨[], rfl⟩
  | @tell e own =>
    refine fun d => ⟨[], ?_⟩
    have hsilent : sendings [e] = [] := by
      cases e <;> first | rfl | exact own.elim
    rw [tell_apply, hsilent]
    rfl
  | die => exact fun d => ⟨[], rfl⟩
  | now => exact fun d => ⟨[], rfl⟩
  | call c => exact posts_call c
  | @bind α β x f _ _ ihx ihf =>
    intro d
    obtain ⟨msgs, hx⟩ := ihx d
    rw [bind_apply]
    cases (x d).value with
    | none => exact ⟨msgs, hx⟩
    | some a =>
      obtain ⟨more, hf⟩ := ihf a (x d).next
      refine ⟨msgs ++ more, ?_⟩
      dsimp only
      rw [Mailbox.postAll_append, ← hx, sendings_append, ← hf]

/-- Where nothing is sent meanwhile, the mailbox stays as it is. -/
theorem Built.mailbox_eq {x : Action (Desk β) α} (h : Built (w.withMail fun _ _ => []) x) :
    ∀ d, (x d).next.mailbox = d.mailbox := by
  induction h with
  | pure | tell | die | now => exact fun d => rfl
  | call c =>
    intro d
    rw [call_next]
    rfl
  | @bind α β x f _ _ ihx ihf =>
    intro d
    rw [bind_apply]
    cases (x d).value with
    | none => exact ihx d
    | some a => exact (ihf a (x d).next).trans (ihx d)

end Action

end HistogramMonitor
