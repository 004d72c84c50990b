import Mathlib.Data.List.Basic
import Tundra.Http.Segmentation

set_option autoImplicit false

/- One context that is fed a stream piece by piece. The parser depends on the complete
lines only, and a line that a call has taken stays taken, so a cut in the stream is not
seen. The time of the call that took the request line is the one thing that differs. -/
namespace Tundra.HttpContext

open Library Segmentation

/-- The context without the time its request line was received. -/
def untimed (c : HttpContext) : HttpContext := { c with request := c.request.setReceiveTime 0 }

@[simp] theorem untimed_gotAll (c : HttpContext) : c.untimed.gotAll = c.gotAll := rfl

/-- The caller goes on with the same context: neither an error nor the whole request yet. -/
def Parsing.waiting (p : Parsing) : Bool := p.ok && !p.context.gotAll

/-- What is compared of two calls. -/
def Parsing.outcome (p : Parsing) : HttpContext × Bool × Bytes :=
  (p.context.untimed, p.ok, p.buf.content)

/-- The same return value, parse state, request and leftover bytes. -/
def SameResult (p q : Parsing) : Prop :=
  p.ok = q.ok ∧ p.context.state = q.context.state ∧
    SameRequest p.context.request q.context.request ∧ p.buf.content = q.buf.content

/-- The next piece of the stream goes behind the bytes left over. The context is only
used again as long as it waits for more. -/
def Parsing.receive (p : Parsing) (delivery : Bytes × TimeStamp) : Option Parsing :=
  (p.buf.append delivery.1).bind fun buf =>
    if p.waiting then p.context.parseRequest buf delivery.2 else some { p with buf := buf }

def Parsing.feed (p : Parsing) (deliveries : List (Bytes × TimeStamp)) : Option Parsing :=
  deliveries.foldlM Parsing.receive p

theorem setMethod_untimed (r : HttpRequest) (m : Bytes) :
    (r.setReceiveTime 0).setMethod m =
      (r.setMethod m).map fun s => (s.1.setReceiveTime 0, s.2) := by
  by_cases unset : r.method = .kInvalid
  · simp [HttpRequest.setMethod, HttpRequest.setReceiveTime, unset]
  · simp [HttpRequest.setMethod, HttpRequest.setReceiveTime, unset]

theorem setTarget_untimed (r : HttpRequest) (target : Bytes) :
    setTarget (r.setReceiveTime 0) target = (setTarget r target).setReceiveTime 0 := by
  unfold setTarget
  dsimp only
  split
  · rfl
  · rfl

theorem setProtocol_untimed (r : HttpRequest) (protocol : Bytes) :
    setProtocol (r.setReceiveTime 0) protocol =
      ((setProtocol r protocol).1.setReceiveTime 0, (setProtocol r protocol).2) := by
  unfold setProtocol
  split
  · split
    · rfl
    · split
      · rfl
      · rfl
  · rfl

theorem processRequestLine_untimed (c : HttpContext) (line : Bytes) :
    c.untimed.processRequestLine line =
      (c.processRequestLine line).map fun r => (r.1.untimed, r.2) := by
  unfold processRequestLine
  dsimp only
  split
  · have method : c.untimed.request = c.request.setReceiveTime 0 := rfl
    rw [method, setMethod_untimed, Option.map_map, Option.map_map]
    apply Option.map_congr
    intro result _
    simp only [Function.comp_apply]
    split
    · split
      · rw [setTarget_untimed, setProtocol_untimed]
        rfl
      · rfl
    · rfl
  · rfl

theorem parseLines_untimed (receiveTime : TimeStamp) (lines : List Bytes) (c : HttpContext) :
    (parseLines receiveTime c lines).map (fun r => (r.1.untimed, r.2)) =
      parseLines 0 c.untimed lines := by
  induction lines generalizing c with
  | nil => rfl
  | cons line rest ih =>
      have same : c.untimed.state = c.state := rfl
      unfold parseLines
      rw [same]
      split
      · rw [processRequestLine_untimed, Option.map_bind, Option.bind_map]
        congr 1
        funext result
        simp only [Function.comp_apply]
        split
        · rw [ih]
          rfl
        · rfl
      · split
        · rw [ih]
          rfl
        · rfl
      · rfl
      · rfl

theorem parseRequest_outcome (receiveTime : TimeStamp) (c : HttpContext) (active : c.Active)
    (b : Buffer) :
    (parseRequest c b receiveTime).map Parsing.outcome =
      (parseLines 0 c.untimed (splitLines 13 10 b.content).1).map fun r =>
        (r.1, r.2.1, unlines 13 10 r.2.2 ++ (splitLines 13 10 b.content).2) := by
  have lines := congrArg (Option.map fun v => (v.1.untimed, v.2.1, v.2.2.2))
    (parseRequest_lines receiveTime c active b)
  rw [Option.map_map, Option.map_map] at lines
  rw [← parseLines_untimed receiveTime, Option.map_map]
  exact lines

theorem sameResult_of_outcome (p q : Parsing) (same : p.outcome = q.outcome) :
    SameResult p q := by
  simp only [Parsing.outcome, Prod.mk.injEq, untimed, HttpContext.mk.injEq] at same
  obtain ⟨⟨state, request⟩, ok, content⟩ := same
  simp only [HttpRequest.setReceiveTime, HttpRequest.mk.injEq] at request
  exact ⟨ok, state, ⟨request.1, request.2.2.1, request.2.2.2.1, request.2.1,
    request.2.2.2.2.2⟩, content⟩

/-- A parser that waits has taken every line, and can go on from where it is. -/
theorem parseLines_waiting (receiveTime : TimeStamp) (lines : List Bytes) (c : HttpContext)
    (active : c.Active) (d : HttpContext) (left : List Bytes)
    (parsed : parseLines receiveTime c lines = some (d, true, left))
    (unfinished : d.gotAll = false) : left = [] ∧ d.Active := by
  induction lines generalizing c with
  | nil =>
      cases parsed
      exact ⟨rfl, active⟩
  | cons line rest ih =>
      unfold parseLines at parsed
      rcases active with state | state
      · simp only [state] at parsed
        cases processed : c.processRequestLine line with
        | none => rw [processed] at parsed; cases parsed
        | some result =>
            rw [processed, Option.bind_some] at parsed
            split at parsed
            · exact ih _ (Or.inr rfl) parsed
            · cases parsed
      · simp only [state] at parsed
        split at parsed
        · exact ih _ (Or.inr rfl) parsed
        · cases parsed
          cases unfinished

/-- Further lines continue the parse, or are left where they are once it has ended. -/
theorem parseLines_append (receiveTime : TimeStamp) (xs ys : List Bytes) (c : HttpContext)
    (active : c.Active) :
    parseLines receiveTime c (xs ++ ys) =
      (parseLines receiveTime c xs).bind fun r =>
        if r.2.1 && !r.1.gotAll then parseLines receiveTime r.1 ys
        else some (r.1, r.2.1, r.2.2 ++ ys) := by
  induction xs generalizing c with
  | nil =>
      have unfinished : c.gotAll = false := by
        rcases active with state | state
        · rw [gotAll, state]; rfl
        · rw [gotAll, state]; rfl
      simp [parseLines, unfinished]
  | cons line rest ih =>
      rw [List.cons_append, parseLines, parseLines]
      rcases active with state | state
      · simp only [state]
        rw [Option.bind_assoc]
        congr 1
        funext result
        split
        · exact ih _ (Or.inr rfl)
        · rfl
      · simp only [state]
        split
        · exact ih _ (Or.inr rfl)
        · rfl

/-- No assertion fails on a fresh context. -/
theorem parseLines_total (receiveTime : TimeStamp) (lines : List Bytes) :
    ∃ result, parseLines receiveTime create lines = some result := by
  cases lines with
  | nil => exact ⟨_, rfl⟩
  | cons line rest =>
      cases first : requestLine line with
      | none =>
          obtain ⟨c, refused, _⟩ := parseLines_refused receiveTime line rest first
          exact ⟨_, refused⟩
      | some r =>
          obtain ⟨c, left, taken⟩ := parseLines_taken receiveTime line rest r first
          exact ⟨_, taken⟩

/-- The parse stands where one call on `text` would have left it. -/
def Parsed (text : Bytes) (p : Parsing) : Prop :=
  ∃ r, parseLines 0 create (splitLines 13 10 text).1 = some r ∧
    p.outcome = (r.1, r.2.1, unlines 13 10 r.2.2 ++ (splitLines 13 10 text).2)

theorem Parsed.outcome_eq {text : Bytes} {p q : Parsing} (first : Parsed text p)
    (second : Parsed text q) : p.outcome = q.outcome := by
  obtain ⟨r, parsed, result⟩ := first
  obtain ⟨r', parsed', result'⟩ := second
  rw [parsed, Option.some.injEq] at parsed'
  rw [result, result', parsed']

theorem parseRequest_parses (b : Buffer) (receiveTime : TimeStamp) :
    ∃ p, create.parseRequest b receiveTime = some p ∧ Parsed b.content p := by
  obtain ⟨r, parsed⟩ := parseLines_total 0 (splitLines 13 10 b.content).1
  have outcome := parseRequest_outcome receiveTime create (Or.inl rfl) b
  have fresh : create.untimed = create := rfl
  rw [fresh, parsed, Option.map_some] at outcome
  obtain ⟨p, called, result⟩ := Option.map_eq_some_iff.mp outcome
  exact ⟨p, called, r, parsed, result⟩

/-- A call on a context that waits takes the lines that the piece completes, from where
the lines before them have left it. -/
theorem receive_waiting (text piece : Bytes) (receiveTime : TimeStamp) (p : Parsing)
    (before : Parsed text p) (waits : p.waiting = true) :
    ∃ more q, p.buf.append piece = some more ∧
      p.context.parseRequest more receiveTime = some q ∧ Parsed (text ++ piece) q := by
  obtain ⟨⟨c, ok, left⟩, parsed, result⟩ := before
  simp only [Parsing.outcome, Prod.mk.injEq] at result
  obtain ⟨rfl, rfl, content⟩ := result
  have both : p.ok = true ∧ p.context.untimed.gotAll = false := by
    simpa [Parsing.waiting] using waits
  rw [both.1] at parsed
  obtain ⟨rfl, active⟩ := parseLines_waiting 0 _ create (Or.inl rfl) _ left parsed both.2
  rw [unlines_nil, List.nil_append] at content
  obtain ⟨more, appended, joined⟩ := Buffer.append_content p.buf piece
  have split := splitLines_append (a := 13) (b := 10) text piece
  obtain ⟨r, whole⟩ := parseLines_total 0 (splitLines 13 10 (text ++ piece)).1
  have continued : parseLines 0 p.context.untimed
      (splitLines 13 10 ((splitLines 13 10 text).2 ++ piece)).1 = some r := by
    rw [← whole, split, parseLines_append 0 _ _ create (Or.inl rfl), parsed, Option.bind_some]
    simp only [both.2, Bool.not_false, Bool.and_self, ↓reduceIte]
  have outcome := parseRequest_outcome receiveTime p.context active more
  rw [joined, content, continued, Option.map_some] at outcome
  obtain ⟨q, called, final⟩ := Option.map_eq_some_iff.mp outcome
  refine ⟨more, q, appended, called, r, whole, ?_⟩
  rw [final, split]

/-- After an error or the end of the request the piece stays behind what is left. -/
theorem parsed_stopped (text piece : Bytes) (p : Parsing) (before : Parsed text p)
    (stopped : p.waiting = false) (more : Buffer)
    (joined : more.content = p.buf.content ++ piece) :
    Parsed (text ++ piece) { p with buf := more } := by
  obtain ⟨⟨c, ok, left⟩, parsed, result⟩ := before
  simp only [Parsing.outcome, Prod.mk.injEq] at result
  obtain ⟨rfl, rfl, content⟩ := result
  have closed : ¬ (p.ok && !p.context.untimed.gotAll) = true := by
    simpa [Parsing.waiting] using stopped
  have split := splitLines_append (a := 13) (b := 10) text piece
  have rest := unlines_splitLines (a := 13) (b := 10) ((splitLines 13 10 text).2 ++ piece)
  refine ⟨(p.context.untimed, p.ok,
    left ++ (splitLines 13 10 ((splitLines 13 10 text).2 ++ piece)).1), ?_, ?_⟩
  · rw [split, parseLines_append 0 _ _ create (Or.inl rfl), parsed, Option.bind_some]
    exact if_neg closed
  · simp only [Parsing.outcome, joined, content, split]
    rw [unlines_append, List.append_assoc, List.append_assoc, rest]

theorem receive_parsed (text : Bytes) (p : Parsing) (before : Parsed text p)
    (delivery : Bytes × TimeStamp) :
    ∃ q, p.receive delivery = some q ∧ Parsed (text ++ delivery.1) q := by
  by_cases waits : p.waiting = true
  · obtain ⟨more, q, appended, called, parsed⟩ :=
      receive_waiting text delivery.1 delivery.2 p before waits
    refine ⟨q, ?_, parsed⟩
    rw [Parsing.receive, appended, Option.bind_some, if_pos waits, called]
  · obtain ⟨more, appended, joined⟩ := Buffer.append_content p.buf delivery.1
    refine ⟨{ p with buf := more }, ?_, ?_⟩
    · rw [Parsing.receive, appended, Option.bind_some, if_neg waits]
    · exact parsed_stopped text delivery.1 p before (by simpa using waits) more joined

/-- Any segmentation: the step lemma along the deliveries. -/
theorem feed_parsed (deliveries : List (Bytes × TimeStamp)) (text : Bytes) (p : Parsing)
    (before : Parsed text p) :
    ∃ q, p.feed deliveries = some q ∧ Parsed (text ++ (deliveries.map Prod.fst).flatten) q := by
  induction deliveries generalizing text p with
  | nil => exact ⟨p, rfl, by simpa using before⟩
  | cons delivery rest ih =>
      obtain ⟨q, received, parsed⟩ := receive_parsed text p before delivery
      obtain ⟨r, fed, all⟩ := ih (text ++ delivery.1) q parsed
      refine ⟨r, ?_, ?_⟩
      · rw [Parsing.feed, List.foldlM_cons, received]
        exact fed
      · rwa [List.map_cons, List.flatten_cons, ← List.append_assoc]

/-- A fresh context with an empty buffer, before the first call. -/
def start : Parsing := ⟨create, Buffer.fresh, true, true⟩

/-- The parser is incremental: cutting the stream in two, or into any pieces, does not
change what is parsed. -/
theorem parseRequest_incremental (first whole : Buffer) (b : Bytes)
    (extended : whole.content = first.content ++ b) (early late once : TimeStamp) :
    ∃ p w, create.parseRequest first early = some p ∧
      create.parseRequest whole once = some w ∧
      (p.ok = true → p.context.gotAll = false →
        ∃ more q, p.buf.append b = some more ∧
          p.context.parseRequest more late = some q ∧ SameResult q w) ∧
      (p.ok = false ∨ p.context.gotAll = true →
        w.ok = p.ok ∧ w.context.state = p.context.state ∧
          SameRequest w.context.request p.context.request ∧
          w.buf.content = p.buf.content ++ b) ∧
      ∀ deliveries : List (Bytes × TimeStamp),
        (deliveries.map Prod.fst).flatten = whole.content →
          ∃ q, start.feed deliveries = some q ∧ SameResult q w := by
  obtain ⟨p, called, before⟩ := parseRequest_parses first early
  obtain ⟨w, calledOnce, all⟩ := parseRequest_parses whole once
  refine ⟨p, w, called, calledOnce, ?_, ?_, ?_⟩
  · intro ok unfinished
    have waits : p.waiting = true := by simp [Parsing.waiting, ok, unfinished]
    obtain ⟨more, q, appended, again, parsed⟩ :=
      receive_waiting first.content b late p before waits
    rw [← extended] at parsed
    exact ⟨more, q, appended, again, sameResult_of_outcome q w (parsed.outcome_eq all)⟩
  · intro ended
    have stopped : p.waiting = false := by
      rcases ended with failed | done
      · simp [Parsing.waiting, failed]
      · simp [Parsing.waiting, done]
    obtain ⟨more, _, joined⟩ := Buffer.append_content p.buf b
    have parsed := parsed_stopped first.content b p before stopped more joined
    rw [← extended] at parsed
    obtain ⟨ok, state, request, content⟩ :=
      sameResult_of_outcome w _ (all.outcome_eq parsed)
    exact ⟨ok, state, request, content.trans joined⟩
  · intro deliveries cut
    have fresh : Parsed [] start := ⟨_, rfl, by decide +kernel⟩
    obtain ⟨q, fed, parsed⟩ := feed_parsed deliveries [] start fresh
    rw [List.nil_append, cut] at parsed
    exact ⟨q, fed, sameResult_of_outcome q w (parsed.outcome_eq all)⟩

/-- The stream cut inside the request line. -/
theorem parseRequest_incremental_plain :
    ∃ first whole, first.content = ascii "GET / HT" ∧ whole.content = plainText ∧
      ∃ p w, create.parseRequest first 1 = some p ∧ create.parseRequest whole 3 = some w ∧
        (p.ok = true → p.context.gotAll = false →
          ∃ more q, p.buf.append (ascii "TP/1.1\r\n\r\n") = some more ∧
            p.context.parseRequest more 2 = some q ∧ SameResult q w) := by
  obtain ⟨first, _, front⟩ := Buffer.append_content Buffer.fresh (ascii "GET / HT")
  obtain ⟨whole, _, all⟩ := Buffer.append_content Buffer.fresh plainText
  rw [Buffer.fresh_content, List.nil_append] at front all
  have extended : whole.content = first.content ++ ascii "TP/1.1\r\n\r\n" := by
    rw [front, all]
    decide +kernel
  obtain ⟨p, w, called, calledOnce, continued, _⟩ :=
    parseRequest_incremental first whole (ascii "TP/1.1\r\n\r\n") extended 1 2 3
  exact ⟨first, whole, front, all, p, w, called, calledOnce, continued⟩

end Tundra.HttpContext
