/-
Requests to one worker through a mailbox with a single place: the callers wait for
their ticket, and a caller that gives up may cancel.

* `Mailbox`: the results stay in a buffer that the worker fills in place;
* `CallerStep`, `WorkerStep`, `MailboxStep`: a section of a caller, or of the worker;
* `MailboxEvent.Spared`: no execution starts while the caller of an earlier request
  waits, and no ticket is given twice in a row of cancelled requests;
* `AnswersOwn`: every caller gets the result of its own request and cancels no other;
* `MailboxKept.callerStep`, `MailboxKept.workerStep`: the invariant is kept by the
  steps whose event is spared;
* `Letterbox`: the result is published together with its ticket, and `LetterboxKept`
  is its invariant.
-/
import Mathlib.Tactic

namespace ArcticController

/-- The ticket after another one; zero is never given. -/
def nextTicket (ticket : UInt32) : UInt32 := if ticket + 1 = 0 then 1 else ticket + 1

lemma nextTicket_ne (ticket : UInt32) : nextTicket ticket ≠ ticket := by
  have hlt := ticket.toNat_lt
  rw [nextTicket]
  split
  · next h =>
      rintro rfl
      exact absurd h (by decide)
  · intro hsame
    have hnat := congrArg UInt32.toNat hsame
    rw [UInt32.toNat_add] at hnat
    simp only [UInt32.reduceToNat] at hnat
    omega

/-- A caller that waits. Its request has a serial number, by which it is told apart
from every other. -/
structure Waiter (κ : Type) where
  ticket : UInt32
  serial : ℕ
  request : κ

/-- What happens to the requests. -/
inductive MailboxEvent (κ ρ : Type) where
  /-- A request was accepted; `reused` says that its ticket was still in use. -/
  | accepted (serial : ℕ) (request : κ) (reused : Bool)
  /-- The worker began; `overlapping` says that a caller of another request waits. -/
  | started (overlapping : Bool)
  /-- The worker computed a result. -/
  | completed (serial : ℕ) (request : κ) (result : ρ)
  /-- A caller returned with what it copied. -/
  | copied (serial : ℕ) (request : κ) (result : ρ)
  /-- A caller timed out and cancelled; `victim` is the request being served. -/
  | cancelled (serial : ℕ) (victim : Option ℕ)
deriving DecidableEq

variable {κ ρ : Type}

/-- No execution starts while another caller waits, and no ticket in use is given. -/
def MailboxEvent.Spared : MailboxEvent κ ρ → Prop
  | .accepted _ _ reused => reused = false
  | .started overlapping => overlapping = false
  | _ => True

instance : DecidablePred (MailboxEvent.Spared : MailboxEvent κ ρ → Prop)
  | .accepted _ _ reused => inferInstanceAs (Decidable (reused = false))
  | .started overlapping => inferInstanceAs (Decidable (overlapping = false))
  | .completed _ _ _ => .isTrue trivial
  | .copied _ _ _ => .isTrue trivial
  | .cancelled _ _ => .isTrue trivial

/-- Every caller that returned with a result has exactly the complete one computed for
its own request, and a caller that timed out cancelled at most its own request. -/
structure AnswersOwn (log : List (MailboxEvent κ ρ)) : Prop where
  copied : ∀ serial request result, .copied serial request result ∈ log →
    .completed serial request result ∈ log
  cancelled : ∀ serial victim, .cancelled serial victim ∈ log → ∀ other ∈ victim, other = serial

lemma AnswersOwn.nil : AnswersOwn ([] : List (MailboxEvent κ ρ)) := ⟨nofun, nofun⟩

/-- One more event. -/
lemma AnswersOwn.concat {log : List (MailboxEvent κ ρ)} (h : AnswersOwn log)
    {e : Option (MailboxEvent κ ρ)}
    (hcopied : ∀ serial request result, e = some (.copied serial request result) →
      .completed serial request result ∈ log)
    (hcancelled : ∀ serial victim, e = some (.cancelled serial victim) →
      ∀ other ∈ victim, other = serial) : AnswersOwn (log ++ e.toList) := by
  refine ⟨fun serial request result hmem => ?_, fun serial victim hmem => ?_⟩
  · rcases List.mem_append.mp hmem with hold | hnew
    · exact List.mem_append_left _ (h.copied _ _ _ hold)
    · exact List.mem_append_left _ (hcopied _ _ _ (Option.mem_toList.mp hnew))
  · rcases List.mem_append.mp hmem with hold | hnew
    · exact h.cancelled _ _ hold
    · exact hcancelled _ _ (Option.mem_toList.mp hnew)

/-! ### A shared buffer -/

/-- `running` is the request the worker copied; `serial`, the number of requests so
far, and `waiting`, the callers that have not returned, are kept for the claims. -/
structure Mailbox (κ ρ : Type) where
  busy : Bool := false
  pending : Bool := false
  cancel : Bool := false
  ticket : UInt32 := 0
  doneTicket : UInt32 := 0
  request : κ
  buffer : ρ
  running : Option (UInt32 × κ) := none
  serial : ℕ := 0
  waiting : List (Waiter κ) := []

namespace Mailbox

/-- A request is put in. -/
def accept (m : Mailbox κ ρ) (request : κ) : Mailbox κ ρ :=
  { m with
    busy := true
    pending := true
    cancel := false
    ticket := nextTicket m.ticket
    request
    serial := m.serial + 1
    waiting := ⟨nextTicket m.ticket, m.serial + 1, request⟩ :: m.waiting }

/-- A caller returns. -/
def release (m : Mailbox κ ρ) (w : Waiter κ) : Mailbox κ ρ :=
  { m with waiting := m.waiting.filter fun w' => w'.serial ≠ w.serial }

/-- The worker takes the request. -/
def start (m : Mailbox κ ρ) : Mailbox κ ρ := { m with running := some (m.ticket, m.request) }

/-- The worker is done; a request that was cancelled is not marked as done. -/
def finish (m : Mailbox κ ρ) (ticket : UInt32) : Mailbox κ ρ :=
  { m with
    doneTicket := if m.cancel then m.doneTicket else ticket
    pending := false
    busy := false
    cancel := false
    running := none }

/-- A caller gives up: it cancels unless its request is done. -/
def timeOut (m : Mailbox κ ρ) (w : Waiter κ) : Mailbox κ ρ :=
  { m.release w with cancel := if m.doneTicket = w.ticket then m.cancel else true }

end Mailbox

/-- One section of a caller; `blocked` says that it may not put a request in. A call
that is refused and a look at a ticket that is not done change nothing. -/
inductive CallerStep (blocked : Bool) (m : Mailbox κ ρ) :
    Option (MailboxEvent κ ρ) → Mailbox κ ρ → Prop
  | call (request : κ) (hbusy : m.busy = false) (hblocked : blocked = false) :
      CallerStep blocked m
        (some (.accepted (m.serial + 1) request (nextTicket m.ticket == m.doneTicket)))
        (m.accept request)
  | pick (w : Waiter κ) (hw : w ∈ m.waiting) (hdone : m.doneTicket = w.ticket) :
      CallerStep blocked m (some (.copied w.serial w.request m.buffer)) (m.release w)
  | timeOut (w : Waiter κ) (hw : w ∈ m.waiting) :
      CallerStep blocked m
        (if m.doneTicket = w.ticket then none
          else some (.cancelled w.serial (if m.busy then some m.serial else none)))
        (m.timeOut w)

/-- One section of the worker, or one write to the buffer. -/
inductive WorkerStep (m : Mailbox κ ρ) : Option (MailboxEvent κ ρ) → Mailbox κ ρ → Prop
  | start (hidle : m.running = none) (hpending : m.pending = true) :
      WorkerStep m (some (.started (m.waiting.any fun w => w.serial != m.serial))) m.start
  | write (result : ρ) (hrunning : m.running ≠ none) : WorkerStep m none { m with buffer := result }
  | finish (ticket : UInt32) (request : κ) (hrunning : m.running = some (ticket, request)) :
      WorkerStep m (some (.completed m.serial request m.buffer)) (m.finish ticket)

/-- The invariant. Callers of earlier requests wait only for the last one that was
done, whose result is still in the buffer. -/
structure MailboxKept (m : Mailbox κ ρ) (log : List (MailboxEvent κ ρ)) : Prop where
  answers : AnswersOwn log
  bound : ∀ w ∈ m.waiting, w.serial ≤ m.serial
  once : (m.waiting.map Waiter.serial).Nodup
  current : m.busy = true → ∀ w ∈ m.waiting, w.serial = m.serial →
    w.ticket = m.ticket ∧ w.request = m.request
  finished : ∀ w ∈ m.waiting, (m.busy = true → w.serial ≠ m.serial) →
    w.ticket = m.doneTicket ∧ .completed w.serial w.request m.buffer ∈ log
  alone : m.running ≠ none → ∀ w ∈ m.waiting, w.serial = m.serial
  pending : m.pending = true → m.busy = true
  running : ∀ ticket request, m.running = some (ticket, request) →
    m.busy = true ∧ ticket = m.ticket ∧ request = m.request
  fresh : m.busy = true → m.doneTicket ≠ m.ticket
  cancelled : m.busy = true → m.cancel = true → ∀ w ∈ m.waiting, w.serial ≠ m.serial

namespace MailboxKept

variable {m m' : Mailbox κ ρ} {log : List (MailboxEvent κ ρ)} {e : Option (MailboxEvent κ ρ)}

lemma init (request : κ) (buffer : ρ) : MailboxKept { request, buffer : Mailbox κ ρ } [] where
  answers := .nil
  bound := nofun
  once := List.nodup_nil
  current := nofun
  finished := nofun
  alone h := absurd rfl h
  pending := nofun
  running := nofun
  fresh := nofun
  cancelled := nofun

/-- A request is accepted. -/
lemma accept (h : MailboxKept m log) (request : κ) (hbusy : m.busy = false)
    (hfresh : nextTicket m.ticket ≠ m.doneTicket) :
    MailboxKept (m.accept request)
      (log ++ [.accepted (m.serial + 1) request (nextTicket m.ticket == m.doneTicket)]) where
  answers := h.answers.concat (e := some _) nofun nofun
  bound w hw := by
    rcases List.mem_cons.mp hw with rfl | hw
    · exact le_refl _
    · exact (h.bound w hw).trans (Nat.le_succ _)
  once := by
    refine List.nodup_cons.mpr ⟨fun hmem => ?_, h.once⟩
    obtain ⟨w, hw, hserial⟩ := List.mem_map.mp hmem
    have hle := h.bound w hw
    have heq : w.serial = m.serial + 1 := hserial
    omega
  current _ w hw hserial := by
    rcases List.mem_cons.mp hw with rfl | hw
    · exact ⟨rfl, rfl⟩
    · have hle := h.bound w hw
      have heq : w.serial = m.serial + 1 := hserial
      omega
  finished w hw hne := by
    rcases List.mem_cons.mp hw with rfl | hw
    · exact absurd rfl (hne rfl)
    · obtain ⟨hticket, hdone⟩ := h.finished w hw fun hb => by rw [hbusy] at hb; cases hb
      exact ⟨hticket, List.mem_append_left _ hdone⟩
  alone hrunning := by
    obtain ⟨⟨ticket, request⟩, hr⟩ := Option.ne_none_iff_exists'.mp hrunning
    have := (h.running ticket request hr).1
    rw [hbusy] at this
    cases this
  pending _ := rfl
  running ticket request hr := by
    have := (h.running ticket request hr).1
    rw [hbusy] at this
    cases this
  fresh _ := hfresh.symm
  cancelled _ hcancel := by cases hcancel

lemma mem_release {w w' : Waiter κ} : w' ∈ (m.release w).waiting ↔ w' ∈ m.waiting ∧ w'.serial ≠ w.serial := by
  rw [Mailbox.release, List.mem_filter, decide_eq_true_eq]

/-- A caller returns, with an event that says nothing wrong. -/
lemma release (h : MailboxKept m log) (w : Waiter κ) (hanswers : AnswersOwn (log ++ e.toList)) :
    MailboxKept (m.release w) (log ++ e.toList) where
  answers := hanswers
  bound w' hw' := h.bound w' (mem_release.mp hw').1
  once := h.once.sublist (List.filter_sublist.map _)
  current hbusy w' hw' := h.current hbusy w' (mem_release.mp hw').1
  finished w' hw' hne := by
    obtain ⟨hticket, hdone⟩ := h.finished w' (mem_release.mp hw').1 hne
    exact ⟨hticket, List.mem_append_left _ hdone⟩
  alone hrunning w' hw' := h.alone hrunning w' (mem_release.mp hw').1
  pending := h.pending
  running := h.running
  fresh := h.fresh
  cancelled hbusy hcancel w' hw' := h.cancelled hbusy hcancel w' (mem_release.mp hw').1

/-- A caller whose ticket is done waits for the result in the buffer. -/
lemma completed (h : MailboxKept m log) {w : Waiter κ} (hw : w ∈ m.waiting)
    (hdone : m.doneTicket = w.ticket) : .completed w.serial w.request m.buffer ∈ log := by
  refine (h.finished w hw fun hbusy hserial => ?_).2
  exact h.fresh hbusy (hdone.trans (h.current hbusy w hw hserial).1)

/-- A caller whose ticket is not done waits for the request being served. -/
lemma serving (h : MailboxKept m log) {w : Waiter κ} (hw : w ∈ m.waiting)
    (hdone : m.doneTicket ≠ w.ticket) : m.busy = true ∧ w.serial = m.serial := by
  by_contra hnot
  refine hdone (h.finished w hw fun hbusy hserial => hnot ⟨hbusy, hserial⟩).1.symm

/-- A caller gives up. -/
lemma timeOut (h : MailboxKept m log) {w : Waiter κ} (hw : w ∈ m.waiting) :
    MailboxKept (m.timeOut w)
      (log ++ (if m.doneTicket = w.ticket then none
        else some (.cancelled w.serial (if m.busy then some m.serial else none))).toList) := by
  by_cases hdone : m.doneTicket = w.ticket
  · rw [if_pos hdone, Mailbox.timeOut, if_pos hdone]
    exact h.release w (e := none) (h.answers.concat nofun nofun)
  · obtain ⟨hbusy, hserial⟩ := h.serving hw hdone
    have hanswers : AnswersOwn (log ++ (some (.cancelled w.serial (some m.serial)) :
        Option (MailboxEvent κ ρ)).toList) := by
      refine h.answers.concat nofun fun serial victim heq other hother => ?_
      obtain ⟨rfl, rfl⟩ := MailboxEvent.cancelled.inj (Option.some.inj heq)
      exact (Option.some.inj hother).symm.trans hserial.symm
    rw [if_neg hdone, Mailbox.timeOut, if_neg hdone, if_pos hbusy]
    have hreleased := h.release w hanswers
    refine { hreleased with cancelled := fun _ _ w' hw' => ?_ }
    have hne : w'.serial ≠ w.serial := (mem_release.mp hw').2
    exact fun heq => hne (heq.trans hserial.symm)

/-- The worker begins while no other caller waits. -/
lemma start (h : MailboxKept m log) (hpending : m.pending = true)
    (halone : ∀ w ∈ m.waiting, w.serial = m.serial) (overlapping : Bool) :
    MailboxKept m.start (log ++ [.started overlapping]) where
  answers := h.answers.concat (e := some _) nofun nofun
  bound := h.bound
  once := h.once
  current := h.current
  finished w hw hne := absurd (halone w hw) (hne (h.pending hpending))
  alone _ := halone
  pending := h.pending
  running ticket request hr := by
    obtain ⟨rfl, rfl⟩ := Prod.mk.inj (Option.some.inj hr)
    exact ⟨h.pending hpending, rfl, rfl⟩
  fresh := h.fresh
  cancelled := h.cancelled

/-- The worker writes. -/
lemma write (h : MailboxKept m log) (hrunning : m.running ≠ none) (result : ρ) :
    MailboxKept { m with buffer := result } log where
  answers := h.answers
  bound := h.bound
  once := h.once
  current := h.current
  finished w hw hne := by
    obtain ⟨⟨ticket, request⟩, hr⟩ := Option.ne_none_iff_exists'.mp hrunning
    exact absurd (h.alone hrunning w hw) (hne (h.running ticket request hr).1)
  alone := h.alone
  pending := h.pending
  running := h.running
  fresh := h.fresh
  cancelled := h.cancelled

/-- The worker is done. -/
lemma finish (h : MailboxKept m log) {ticket : UInt32} {request : κ}
    (hrunning : m.running = some (ticket, request)) :
    MailboxKept (m.finish ticket) (log ++ [.completed m.serial request m.buffer]) where
  answers := h.answers.concat (e := some _) nofun nofun
  bound := h.bound
  once := h.once
  current hbusy := by cases hbusy
  finished w hw _ := by
    obtain ⟨hbusy, rfl, rfl⟩ := h.running ticket request hrunning
    have hserial := h.alone (by rw [hrunning]; nofun) w hw
    obtain ⟨hticket, hrequest⟩ := h.current hbusy w hw hserial
    cases hcancel : m.cancel with
    | true => exact absurd hserial (h.cancelled hbusy hcancel w hw)
    | false =>
        refine ⟨?_, ?_⟩
        · rw [Mailbox.finish, hcancel]
          exact hticket
        · rw [hserial, hrequest]
          exact List.mem_append_right _ (List.mem_singleton_self _)
  alone hne := absurd rfl hne
  pending hpending := by cases hpending
  running _ _ hr := by cases hr
  fresh hbusy := by cases hbusy
  cancelled hbusy := by cases hbusy

/-- A section of a caller. -/
lemma callerStep (h : MailboxKept m log) {blocked : Bool} (hstep : CallerStep blocked m e m')
    (hspared : ∀ x ∈ e, x.Spared) : MailboxKept m' (log ++ e.toList) := by
  cases hstep with
  | call request hbusy hblocked =>
      exact h.accept request hbusy (beq_eq_false_iff_ne.mp (hspared _ rfl))
  | pick w hw hdone =>
      refine h.release w (h.answers.concat ?_ nofun)
      intro serial request result heq
      obtain ⟨rfl, rfl, rfl⟩ := MailboxEvent.copied.inj (Option.some.inj heq)
      exact h.completed hw hdone
  | timeOut w hw => exact h.timeOut hw

/-- A section of the worker. -/
lemma workerStep (h : MailboxKept m log) (hstep : WorkerStep m e m')
    (hspared : ∀ x ∈ e, x.Spared) : MailboxKept m' (log ++ e.toList) := by
  cases hstep with
  | start hidle hpending =>
      have halone : ∀ w ∈ m.waiting, w.serial = m.serial := by
        have hnone : (m.waiting.any fun w => w.serial != m.serial) = false := hspared _ rfl
        simpa using hnone
      exact h.start hpending halone _
  | write result hrunning =>
      rw [Option.toList_none, List.append_nil]
      exact h.write hrunning result
  | finish ticket request hrunning => exact h.finish hrunning

end MailboxKept

/-! ### A published result -/

/-- As a `Mailbox`, where the worker publishes its result together with the ticket and
nothing is cancelled. -/
structure Letterbox (κ ρ : Type) where
  pending : Bool := false
  ticket : UInt32 := 0
  doneTicket : UInt32 := 0
  request : κ
  result : ρ
  running : Option (UInt32 × κ) := none
  serial : ℕ := 0
  waiting : List (Waiter κ) := []

namespace Letterbox

/-- A request is put in. -/
def accept (m : Letterbox κ ρ) (request : κ) : Letterbox κ ρ :=
  { m with
    pending := true
    ticket := nextTicket m.ticket
    request
    serial := m.serial + 1
    waiting := ⟨nextTicket m.ticket, m.serial + 1, request⟩ :: m.waiting }

/-- A caller returns. -/
def release (m : Letterbox κ ρ) (w : Waiter κ) : Letterbox κ ρ :=
  { m with waiting := m.waiting.filter fun w' => w'.serial ≠ w.serial }

/-- The worker takes the request. -/
def start (m : Letterbox κ ρ) : Letterbox κ ρ := { m with running := some (m.ticket, m.request) }

/-- The worker publishes the result. -/
def finish (m : Letterbox κ ρ) (ticket : UInt32) (result : ρ) : Letterbox κ ρ :=
  { m with result, doneTicket := ticket, pending := false, running := none }

end Letterbox

/-- One section of a caller. -/
inductive LetterboxCallerStep (m : Letterbox κ ρ) :
    Option (MailboxEvent κ ρ) → Letterbox κ ρ → Prop
  | call (request : κ) (hpending : m.pending = false) :
      LetterboxCallerStep m
        (some (.accepted (m.serial + 1) request
          (m.waiting.any fun w => w.ticket == nextTicket m.ticket)))
        (m.accept request)
  | pick (w : Waiter κ) (hw : w ∈ m.waiting) (hdone : m.doneTicket = w.ticket) :
      LetterboxCallerStep m (some (.copied w.serial w.request m.result)) (m.release w)
  | timeOut (w : Waiter κ) (hw : w ∈ m.waiting) : LetterboxCallerStep m none (m.release w)

/-- One section of the worker. -/
inductive LetterboxWorkerStep (m : Letterbox κ ρ) :
    Option (MailboxEvent κ ρ) → Letterbox κ ρ → Prop
  | start (hidle : m.running = none) (hpending : m.pending = true) :
      LetterboxWorkerStep m none m.start
  | finish (ticket : UInt32) (request : κ) (result : ρ)
      (hrunning : m.running = some (ticket, request)) :
      LetterboxWorkerStep m (some (.completed m.serial request result)) (m.finish ticket result)

/-- The invariant. Whoever waits for the ticket that is done waits for the result that
is published. -/
structure LetterboxKept (m : Letterbox κ ρ) (log : List (MailboxEvent κ ρ)) : Prop where
  answers : AnswersOwn log
  current : m.pending = true → ∀ w ∈ m.waiting, w.ticket = m.ticket →
    w.serial = m.serial ∧ w.request = m.request
  done : ∀ w ∈ m.waiting, w.ticket = m.doneTicket →
    .completed w.serial w.request m.result ∈ log
  running : ∀ ticket request, m.running = some (ticket, request) →
    m.pending = true ∧ ticket = m.ticket ∧ request = m.request
  last : m.pending = false → m.doneTicket = m.ticket

namespace LetterboxKept

variable {m m' : Letterbox κ ρ} {log : List (MailboxEvent κ ρ)} {e : Option (MailboxEvent κ ρ)}

lemma init (request : κ) (result : ρ) : LetterboxKept { request, result : Letterbox κ ρ } [] where
  answers := .nil
  current := nofun
  done := nofun
  running := nofun
  last _ := rfl

/-- A request is accepted with a ticket nobody waits for. -/
lemma accept (h : LetterboxKept m log) (request : κ) (hpending : m.pending = false)
    (hfresh : ∀ w ∈ m.waiting, w.ticket ≠ nextTicket m.ticket) (reused : Bool) :
    LetterboxKept (m.accept request) (log ++ [.accepted (m.serial + 1) request reused]) where
  answers := h.answers.concat (e := some _) nofun nofun
  current _ w hw hticket := by
    rcases List.mem_cons.mp hw with rfl | hw
    · exact ⟨rfl, rfl⟩
    · exact absurd hticket (hfresh w hw)
  done w hw hticket := by
    rcases List.mem_cons.mp hw with rfl | hw
    · have hsame : nextTicket m.ticket = m.doneTicket := hticket
      rw [h.last hpending] at hsame
      exact absurd hsame (nextTicket_ne m.ticket)
    · exact List.mem_append_left _ (h.done w hw hticket)
  running ticket request hr := by
    have hbusy := (h.running ticket request hr).1
    rw [hpending] at hbusy
    cases hbusy
  last hp := by cases hp

/-- A caller returns, with an event that says nothing wrong. -/
lemma release (h : LetterboxKept m log) (w : Waiter κ) (hanswers : AnswersOwn (log ++ e.toList)) :
    LetterboxKept (m.release w) (log ++ e.toList) where
  answers := hanswers
  current hp w' hw' := h.current hp w' (List.mem_of_mem_filter hw')
  done w' hw' hticket := List.mem_append_left _ (h.done w' (List.mem_of_mem_filter hw') hticket)
  running := h.running
  last := h.last

/-- The worker publishes. -/
lemma finish (h : LetterboxKept m log) {ticket : UInt32} {request : κ}
    (hrunning : m.running = some (ticket, request)) (result : ρ) :
    LetterboxKept (m.finish ticket result) (log ++ [.completed m.serial request result]) where
  answers := h.answers.concat (e := some _) nofun nofun
  current hp := by cases hp
  done w hw hticket := by
    obtain ⟨hpending, rfl, rfl⟩ := h.running ticket request hrunning
    obtain ⟨hserial, hrequest⟩ := h.current hpending w hw hticket
    rw [hserial, hrequest]
    exact List.mem_append_right _ (List.mem_singleton_self _)
  running _ _ hr := by cases hr
  last _ := (h.running ticket request hrunning).2.1

/-- A section of a caller. -/
lemma callerStep (h : LetterboxKept m log) (hstep : LetterboxCallerStep m e m')
    (hspared : ∀ x ∈ e, x.Spared) : LetterboxKept m' (log ++ e.toList) := by
  cases hstep with
  | call request hpending =>
      refine h.accept request hpending ?_ _
      have hnone : (m.waiting.any fun w => w.ticket == nextTicket m.ticket) = false := hspared _ rfl
      simpa using hnone
  | pick w hw hdone =>
      refine h.release w (h.answers.concat ?_ nofun)
      intro serial request result heq
      obtain ⟨rfl, rfl, rfl⟩ := MailboxEvent.copied.inj (Option.some.inj heq)
      exact h.done w hw hdone.symm
  | timeOut w hw => exact h.release w (e := none) (h.answers.concat nofun nofun)

/-- A section of the worker. -/
lemma workerStep (h : LetterboxKept m log) (hstep : LetterboxWorkerStep m e m') :
    LetterboxKept m' (log ++ e.toList) := by
  cases hstep with
  | start hidle hpending =>
      rw [Option.toList_none, List.append_nil]
      refine { h with running := fun ticket request hr => ?_ }
      obtain ⟨rfl, rfl⟩ := Prod.mk.inj (Option.some.inj hr)
      exact ⟨hpending, rfl, rfl⟩
  | finish ticket request result hrunning => exact h.finish hrunning result

end LetterboxKept

end ArcticController
