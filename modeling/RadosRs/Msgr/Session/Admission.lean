import RadosRs.Msgr.MessageFrames
import RadosRs.Msgr.Session.Refinement

/-!
# Messages that can be sent

A request is checked once, when it is admitted.  Later it gets a transaction id and
a sequence number, and it may be sent many times.  The numbers stand in fields of
fixed width, so they change neither the parts of the message nor its size, and what
was found at the admission is true whenever the message is handed to a transport.
-/

namespace RadosRs.Msgr

open Fallible

/-- The message can be encoded, and both transports take its frame. -/
def Message.Sendable (message : Message) (limits : Limits) : Prop :=
  ∃ frame, message.encode limits = .ok frame ∧
    (∀ codec : CrcCodec, (codec.encode frame limits).isOk = true) ∧
    (validateFrameSize frame limits).isOk = true

section Header

variable (message : Message) (header : MessageHeader) (limits : Limits)

theorem prepare_header : CrcCodec.prepare { message with header }.frame limits =
    CrcCodec.prepare message.frame limits := by
  unfold CrcCodec.prepare descriptorsAndCrcSize
  rfl

theorem validateFrameSize_header : validateFrameSize { message with header }.frame limits =
    validateFrameSize message.frame limits := by
  -- the descriptors are the same, and only the segments that are kept with them differ
  have first (f : Segment → Except FrameError Descriptor)
      (same : f ⟨defaultAlignment, header.bytes⟩ = f ⟨defaultAlignment, message.header.bytes⟩) :
      (trimmedSegments { message with header }.frame.segments).mapM f =
        (trimmedSegments message.frame.segments).mapM f := by
    show (_ :: _).mapM f = (_ :: _).mapM f
    rw [List.mapM_cons, List.mapM_cons, same]
  unfold validateFrameSize PreparedFrame.new
  show (((trimmedSegments { message with header }.frame.segments).mapM _ >>= fun _ => _ :
      Except FrameError PreparedFrame) >>= _) =
    (((trimmedSegments message.frame.segments).mapM _ >>= fun _ => _ :
      Except FrameError PreparedFrame) >>= _)
  rw [first _ rfl, bind_assoc, bind_assoc]
  refine bind_congr fun descriptors => ?_
  cases validateDescriptors descriptors limits <;> rfl

end Header

variable {message : Message} {limits : Limits}

/-- The numbers in the header do not matter. -/
theorem Message.Sendable.renumber (h : message.Sendable limits) {header : MessageHeader}
    (same : header.dataPrePaddingLength = message.header.dataPrePaddingLength) :
    { message with header }.Sendable limits := by
  obtain ⟨frame, encoded, crc, secure⟩ := h
  obtain ⟨fits, rfl⟩ := Message.encode_eq_ok.mp encoded
  refine ⟨_, Message.encode_eq_ok.mpr ⟨?_, rfl⟩, fun codec => ?_, ?_⟩
  · obtain ⟨lengths, padding, front, middle, data, segments, total⟩ := fits
    refine ⟨lengths, same ▸ padding, front, middle, data, ?_, total⟩
    simp only [Message.frame, List.forall_mem_cons, MessageHeader.length_bytes] at segments ⊢
    exact segments
  · rw [CrcCodec.isOk_encode, prepare_header]
    exact CrcCodec.isOk_encode _ ▸ crc codec
  · rw [validateFrameSize_header]
    exact secure

namespace Session

/-- What is admitted can be sent. -/
theorem Machine.sendable_of_admissionBytes {m : Machine} {bytes : Nat}
    (h : m.admissionBytes message = .ok bytes) : message.Sendable m.config.limits := by
  unfold Machine.admissionBytes at h
  obtain ⟨front, -, h⟩ := bind_eq_ok.mp h
  obtain ⟨middle, -, h⟩ := bind_eq_ok.mp h
  obtain ⟨data, -, h⟩ := bind_eq_ok.mp h
  obtain ⟨-, h⟩ := check_eq_ok.mp h
  obtain ⟨value, -, h⟩ := bind_eq_ok.mp h
  obtain ⟨frame, encoded, h⟩ := bind_eq_ok.mp h
  obtain ⟨accepted, -⟩ := check_eq_ok.mp h
  simp only [Bool.or_eq_true, Bool.not_eq_true', not_or, Bool.not_eq_false] at accepted
  refine ⟨frame, mapError_eq_ok.mp encoded, fun codec => ?_, accepted.2⟩
  rw [CrcCodec.isOk_encode]
  exact accepted.1

theorem Turn.sendable {m : Machine} {input : Input} {es : List Effect} {l : Ledger}
    (h : Turn m input es l) (wf : m.toLedger.Wf) (same : m.config.limits = limits)
    (ih : ∀ p ∈ m.pending, p.message.Sendable limits) :
    (∀ p ∈ l.pending, p.message.Sendable limits) ∧
      ∀ generation requestId message, .sendMessage generation requestId message ∈ es →
        message.Sendable limits := by
  have numbered (p : Pending) (mem : p ∈ m.pending) (q : Pending) (after : Option Nat)
      (numbers : m.Numbers p q after) : q.message.Sendable limits := by
    cases numbers with
    | replayed => exact ih p mem
    | fresh => exact (ih p mem).renumber rfl
  refine ⟨h.pending_rule wf (fun p mem _ => ih p mem) ?_
    (fun p mem q after numbers _ => numbered p mem q after numbers), ?_⟩
  · rintro p request - - - taken message
    rw [message, ← same]
    exact (m.sendable_of_admissionBytes taken).renumber rfl
  intro generation requestId message mem
  cases h.puts wf _ mem with
  | sent hp unsent numbers => exact numbered _ hp _ _ numbers

/-- Whatever is handed to a transport in a run can be sent. -/
theorem sent_messages_encode {config : Config} {m : Machine} (new : Machine.new config = .ok m)
    (inputs : List Input) (generation requestId : Nat) (message : Message)
    (sent : .sendMessage generation requestId message ∈ Mealy.log Machine.step m inputs) :
    message.Sendable config.limits := by
  refine (Mealy.run_invariant Machine.step
    (fun _ log m => m.Reached ∧ m.config.limits = config.limits ∧
      (∀ p ∈ m.pending, p.message.Sendable config.limits) ∧
      ∀ generation requestId message, .sendMessage generation requestId message ∈ log →
        message.Sendable config.limits) ⟨.new new, ?_⟩ ?_ inputs).2.2.2 generation requestId message
    sent
  · cases Machine.new_eq_ok new
    exact ⟨rfl, nofun, nofun⟩
  rintro inputs log m input ⟨wf, same, pending, before⟩
  obtain ⟨pending, now⟩ := (Machine.step_turn wf input).sendable wf.ledger same pending
  have kept := congrArg (·.2.2.2) (Machine.step_of wf.sound input).limits
  refine ⟨wf.step input, kept.trans same, pending, fun generation requestId message mem => ?_⟩
  obtain mem | mem := List.mem_append.mp mem
  · exact before generation requestId message mem
  · exact now generation requestId message (List.mem_filter.mpr ⟨mem, rfl⟩)

/-- A request that is admitted and sent. -/
theorem sent_messages_encode_sample :
    let message : Message := { header := { sequence := 1, transactionId := 1 } }
    let inputs : List Input := [.start true, .admitRequest 1 {} false, .dispatch]
    Machine.new sampleConfig = .ok (.initial sampleConfig) ∧
      .sendMessage 1 1 message ∈ Mealy.log Machine.step (.initial sampleConfig) inputs ∧
      message.Sendable sampleConfig.limits := by
  intro message inputs
  have sent : .sendMessage 1 1 message ∈ Mealy.log Machine.step (.initial sampleConfig) inputs := by
    decide
  exact ⟨new_sample, sent, sent_messages_encode new_sample inputs 1 1 message sent⟩

end Session

end RadosRs.Msgr
