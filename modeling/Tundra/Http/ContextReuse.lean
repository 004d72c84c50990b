import Mathlib.Data.List.Basic
import Tundra.Library.Machine
import Tundra.Http.RequestBoundary
import Tundra.Http.RequestGrammar

set_option autoImplicit false

/- A context that is used for more than one call of parseRequest, with calls of reset between
them. -/
namespace Tundra.HttpContext

open Library

inductive Call
  | parseRequest (buf : Buffer) (receiveTime : TimeStamp)
  | reset

/-- Calls on one context, as long as they return. -/
def machine : Machine HttpContext Call where
  enabled _ _ := True
  step c
    | .parseRequest buf receiveTime =>
        (c.parseRequest buf receiveTime).bind fun p => if p.hasMore then none else some p.context
    | .reset => some c.reset

/-- The loop of parseRequest ends: after some number of passes there are no more, or an
assertion has failed. -/
def LoopEnds (c : HttpContext) (b : Buffer) (receiveTime : TimeStamp) : Prop :=
  ∃ passes, ∀ p, parseLoop receiveTime passes ⟨c, b, true, true⟩ = some p → p.hasMore = false

/-- No method is read off the line: it has no space, or what is in front of the first one is
not the name of a method. -/
def Nameless (line : Bytes) : Prop :=
  32 ∈ line → Method.ofBytes (line.take (findByte line 32)) = .kInvalid

instance decidableNameless (line : Bytes) : Decidable (Nameless line) :=
  inferInstanceAs (Decidable (32 ∈ line → _))

/-- Whatever has been added to the buffer, the context refuses it. -/
def Refuses (c : HttpContext) (b : Buffer) : Prop :=
  ∀ (more : Bytes) (receiveTime : TimeStamp) (r : Buffer), r.content = b.content ++ more →
    ∃ q, c.parseRequest r receiveTime = some q ∧ q.hasMore = false ∧ q.ok = false

/-- The failed call has left no trace, and it can be made again. -/
def Repeatable (c : HttpContext) (b : Buffer) (p : Parsing) : Prop :=
  p.buf = b ∧ p.context.state = c.state ∧ p.context.request = c.request ∧ Refuses p.context b

section Loop

variable {receiveTime : TimeStamp} {c d : HttpContext} {b : Buffer}

/-- In the two states that are not handled the passes change nothing. -/
theorem parseLoop_stuck (stuck : ¬ c.Active) (passes : Nat) :
    parseLoop receiveTime passes ⟨c, b, true, true⟩ = some ⟨c, b, true, true⟩ := by
  have pass : parsePass receiveTime ⟨c, b, true, true⟩ = some ⟨c, b, true, true⟩ := by
    unfold Active at stuck
    cases state : c.state with
    | kExpectRequestLine => exact absurd (Or.inl state) stuck
    | kExpectHeaders => exact absurd (Or.inr state) stuck
    | kExpectody => simp only [parsePass, state]
    | kGotAll => simp only [parsePass, state]
  induction passes with
  | zero => rfl
  | succ passes ih => rw [parseLoop, if_pos rfl, pass, Option.bind_some, ih]

theorem parseRequest_ends (active : c.Active) {p : Parsing}
    (returned : c.parseRequest b receiveTime = some p) :
    p.hasMore = false ∧ ∃ left, parseLines receiveTime c (splitLines 13 10 b.content).1 =
      some (p.context, p.ok, left) := by
  have parsed := parseRequest_lines receiveTime c active b
  rw [returned, Option.map_some] at parsed
  obtain ⟨⟨context, ok, left⟩, taken, view⟩ := Option.map_eq_some_iff.mp parsed.symm
  simp only [Parsing.view, Prod.mk.injEq] at view
  obtain ⟨rfl, rfl, hasMore, _⟩ := view
  exact ⟨hasMore.symm, left, taken⟩

theorem loopEnds_iff : LoopEnds c b receiveTime ↔ c.Active := by
  constructor
  · intro ⟨passes, ends⟩
    by_contra stuck
    exact absurd (ends _ (parseLoop_stuck stuck passes)) (by simp)
  · intro active
    exact ⟨b.readableBytes + 1, fun p returned => (parseRequest_ends active returned).1⟩

/-- The state kExpectody is never entered. -/
theorem parseLines_reached (lines : List Bytes) (active : c.Active) {ok : Bool}
    {left : List Bytes} (parsed : parseLines receiveTime c lines = some (d, ok, left)) :
    d.Active ∨ d.gotAll = true := by
  induction lines generalizing c with
  | nil =>
      cases parsed
      exact Or.inl active
  | cons line rest ih =>
      unfold parseLines at parsed
      rcases active with state | state
      · simp only [state] at parsed
        obtain ⟨⟨context, good⟩, processed, taken⟩ := Option.bind_eq_some_iff.mp parsed
        dsimp only at taken
        split at taken
        · exact ih (Or.inr rfl) taken
        · cases taken
          exact Or.inl (Or.inl ((processRequestLine_state c line _ _ processed).trans state))
      · simp only [state] at parsed
        split at parsed
        · exact ih (Or.inr rfl) parsed
        · cases parsed
          exact Or.inr rfl

theorem machine_reached (calls : List Call) (run : machine.Run create calls c) :
    c.Active ∨ c.gotAll = true := by
  have keeps : machine.Preserves fun c => c.Active ∨ c.gotAll = true := by
    intro s call t _ _ moved
    cases call with
    | reset =>
        cases moved
        exact Or.inl (Or.inl rfl)
    | parseRequest buf receiveTime =>
        obtain ⟨p, returned, ended⟩ := Option.bind_eq_some_iff.mp moved
        split at ended
        · cases ended
        · rename_i done
          cases ended
          have ends : LoopEnds s buf receiveTime := by
            refine ⟨buf.readableBytes + 1, fun q again => ?_⟩
            obtain rfl : p = q := Option.some.inj (returned.symm.trans again)
            exact Bool.eq_false_iff.mpr done
          have active := loopEnds_iff.mp ends
          obtain ⟨_, left, parsed⟩ := parseRequest_ends active returned
          exact parseLines_reached _ active parsed
  have reached := run.invariant keeps (Or.inl (Or.inl rfl))
  exact reached

theorem Active.unfinished (active : c.Active) : c.gotAll = false := by
  rcases active with state | state
  · rw [gotAll, state]
    rfl
  · rw [gotAll, state]
    rfl

/-- The loop of parseRequest ends, on whatever buffer, as long as the context does not hold
a complete request. -/
theorem parseRequest_ends_iff (calls : List Call) (c : HttpContext)
    (run : machine.Run create calls c) (b : Buffer) (receiveTime : TimeStamp) :
    LoopEnds c b receiveTime ↔ c.gotAll = false := by
  rw [loopEnds_iff]
  constructor
  · exact Active.unfinished
  · intro unfinished
    rcases machine_reached calls run with active | complete
    · exact active
    · rw [unfinished] at complete
      cases complete

end Loop

theorem complete_call :
    ∃ b p, create.parseRequest b 0 = some p ∧ p.hasMore = false ∧ p.context.gotAll = true := by
  obtain ⟨b, _, content⟩ := Buffer.append_content Buffer.fresh (ascii "GET / HTTP/1.1\r\n\r\n")
  rw [Buffer.fresh_content, List.nil_append] at content
  have parsed := parseRequest_lines 0 create (Or.inl rfl) b
  have lines : (parseLines 0 create (splitLines 13 10 (ascii "GET / HTTP/1.1\r\n\r\n")).1).map
      (fun r => r.1.gotAll) = some true := by decide +kernel
  rw [content] at parsed
  obtain ⟨r, taken, gotAll⟩ := Option.map_eq_some_iff.mp lines
  rw [taken, Option.map_some] at parsed
  obtain ⟨p, returned, view⟩ := Option.map_eq_some_iff.mp parsed
  simp only [Parsing.view, Prod.mk.injEq] at view
  exact ⟨b, p, returned, view.2.2.1, by rw [view.1, gotAll]⟩

theorem complete_run : ∃ b c, machine.Run create [.parseRequest b 0] c ∧ c.gotAll = true := by
  obtain ⟨b, p, returned, ended, complete⟩ := complete_call
  refine ⟨b, p.context, .single trivial ?_, complete⟩
  simp [machine, returned, ended]

/-- A context that has been reset behind a complete request. -/
theorem parseRequest_ends_reset :
    ∃ b c, machine.Run create [.parseRequest b 0, .reset] c ∧ LoopEnds c b 0 := by
  obtain ⟨b, c, run, _⟩ := complete_run
  have again : machine.Run create [.parseRequest b 0, .reset] c.reset := run.snoc trivial rfl
  exact ⟨b, c.reset, again, (parseRequest_ends_iff _ _ again b 0).mpr rfl⟩

/-- Without the reset the next call does not return, whatever its buffer holds. -/
theorem parseRequest_spins :
    ∃ b c, machine.Run create [.parseRequest b 0] c ∧
      ∀ (next : Buffer) (receiveTime : TimeStamp), ¬ LoopEnds c next receiveTime := by
  obtain ⟨b, c, run, complete⟩ := complete_run
  refine ⟨b, c, run, fun next receiveTime ends => ?_⟩
  have unfinished := (loopEnds_iff.mp ends).unfinished
  rw [complete] at unfinished
  cases unfinished

section Failure

variable {receiveTime : TimeStamp} {c d : HttpContext} {b : Buffer} {p : Parsing}

theorem setTarget_method (r : HttpRequest) (target : Bytes) :
    (setTarget r target).method = r.method := by
  unfold setTarget
  dsimp only
  split
  · rfl
  · rfl

theorem setProtocol_method (r : HttpRequest) (protocol : Bytes) :
    (setProtocol r protocol).1.method = r.method := by
  unfold setProtocol
  split
  · split
    · rfl
    · split
      · rfl
      · rfl
  · rfl

theorem nameless_word (word rest : Bytes) (plain : 32 ∉ word) :
    Nameless (word ++ 32 :: rest) ↔ Method.ofBytes word = .kInvalid := by
  unfold Nameless
  rw [findByte_append 32 word rest plain, List.take_left]
  exact ⟨fun named => named (by simp), fun named _ => named⟩

/-- A line that is refused without a method read off it changes nothing. -/
theorem processRequestLine_nameless (line : Bytes) (nameless : Nameless line) {ok : Bool}
    (processed : c.processRequestLine line = some (d, ok)) : d = c ∧ ok = false := by
  by_cases space : 32 ∈ line
  · obtain ⟨word, rest, rfl, plain⟩ := List.eq_append_cons_of_mem space
    have unknown := (nameless_word word rest plain).mp nameless
    rw [processRequestLine_word c word rest plain, HttpRequest.setMethod, unknown] at processed
    by_cases unset : c.request.method = .kInvalid
    · rw [if_pos unset] at processed
      cases processed
      refine ⟨?_, rfl⟩
      rw [← unset]
    · rw [if_neg unset] at processed
      cases processed
  · have none : findByte line 32 = line.length :=
      not_not.mp fun here => space ((findByte_ne_length 32 line).mp here)
    simp only [processRequestLine, none, ne_eq, not_true_eq_false, ↓reduceIte] at processed
    cases processed
    exact ⟨rfl, rfl⟩

/-- The method stays set when the rest of the line is bad. -/
theorem processRequestLine_named (line : Bytes) (named : ¬ Nameless line) {ok : Bool}
    (processed : c.processRequestLine line = some (d, ok)) :
    c.request.method = .kInvalid ∧ d.request.method ≠ .kInvalid := by
  have space : 32 ∈ line := (Classical.not_imp.mp named).1
  obtain ⟨word, rest, rfl, plain⟩ := List.eq_append_cons_of_mem space
  rw [nameless_word word rest plain] at named
  rw [processRequestLine_word c word rest plain, HttpRequest.setMethod] at processed
  by_cases unset : c.request.method = .kInvalid
  · refine ⟨unset, ?_⟩
    simp only [unset, named, ne_eq, not_false_eq_true, decide_true, Option.map_some, ↓reduceIte,
      Option.some.injEq] at processed
    split at processed
    · cases processed
      rw [setProtocol_method, setTarget_method]
      exact named
    · cases processed
      exact named
  · rw [if_neg unset] at processed
    cases processed

theorem parseLines_headers_ok (lines : List Bytes) (state : c.state = .kExpectHeaders)
    {ok : Bool} {left : List Bytes}
    (parsed : parseLines receiveTime c lines = some (d, ok, left)) : ok = true := by
  obtain ⟨state, request⟩ := c
  subst state
  rcases parseLines_section receiveTime request lines with
    ⟨_, e, taken, _⟩ | ⟨_, _, _, e, _, _, taken, _⟩
  · rw [taken] at parsed
    cases parsed
    rfl
  · rw [taken] at parsed
    cases parsed
    rfl

/-- What a call that returns false has done: the request line was there, and was refused. -/
theorem parseRequest_failed (returned : c.parseRequest b receiveTime = some p)
    (failed : p.ok = false) :
    c.state = .kExpectRequestLine ∧ p.buf = b ∧
      ∃ line rest, (splitLines 13 10 b.content).1 = line :: rest ∧
        c.processRequestLine line = some (p.context, false) := by
  by_cases active : c.Active
  · obtain ⟨_, left, parsed⟩ := parseRequest_ends active returned
    rw [failed] at parsed
    rcases active with state | state
    · refine ⟨state, ?_⟩
      cases lines : (splitLines 13 10 b.content).1 with
      | nil =>
          rw [lines] at parsed
          cases parsed
      | cons line rest =>
          obtain ⟨found, taken, _⟩ := findCRLF_line b line rest _ (Prod.ext lines rfl)
          rw [lines, parseLines] at parsed
          simp only [state] at parsed
          obtain ⟨⟨context, good⟩, processed, result⟩ := Option.bind_eq_some_iff.mp parsed
          cases good with
          | true => cases parseLines_headers_ok rest rfl result
          | false =>
              cases result
              refine ⟨?_, line, rest, rfl, processed⟩
              simp only [parseRequest, parseLoop, ↓reduceIte, parsePass, state, found, taken,
                processed, Option.bind_some, Bool.false_eq_true] at returned
              rw [parseLoop_done _ _ _ rfl] at returned
              rw [← Option.some.inj returned]
    · cases parseLines_headers_ok _ state parsed
  · have same := returned.symm.trans (parseLoop_stuck active _)
    cases same
    cases failed

/-- A context that expects a request line refuses every buffer that begins with a line that
it refuses. -/
theorem parseRequest_refuses (receiveTime : TimeStamp) (state : c.state = .kExpectRequestLine)
    (line : Bytes) (rest : List Bytes) (lines : (splitLines 13 10 b.content).1 = line :: rest)
    (refused : c.processRequestLine line = some (d, false)) :
    ∃ q, c.parseRequest b receiveTime = some q ∧ q.hasMore = false ∧ q.ok = false := by
  have parsed := parseRequest_lines receiveTime c (Or.inl state) b
  rw [lines, parseLines] at parsed
  simp only [state, refused, Option.bind_some, Bool.false_eq_true, ↓reduceIte, Option.map_some]
    at parsed
  obtain ⟨q, returned, view⟩ := Option.map_eq_some_iff.mp parsed
  simp only [Parsing.view, Prod.mk.injEq] at view
  exact ⟨q, returned, view.2.2.1, view.2.1⟩

/-- The assertion fails when a method has been set before. -/
theorem parseRequest_asserts (receiveTime : TimeStamp) (state : c.state = .kExpectRequestLine)
    (line : Bytes) (rest : List Bytes) (lines : (splitLines 13 10 b.content).1 = line :: rest)
    (named : ¬ Nameless line) (set_ : c.request.method ≠ .kInvalid) :
    c.parseRequest b receiveTime = none := by
  have none : c.processRequestLine line = none := by
    cases processed : c.processRequestLine line with
    | none => rfl
    | some result => exact absurd (processRequestLine_named line named processed).1 set_
  have parsed := parseRequest_lines receiveTime c (Or.inl state) b
  rw [lines, parseLines] at parsed
  simp only [state, none, Option.bind_none, Option.map_none] at parsed
  exact Option.map_eq_none_iff.mp parsed

/-- A call that returns false can be repeated exactly when it has read no method off the
first line. The request is unchanged in just the same cases. -/
theorem failed_parse_iff (c : HttpContext) (b : Buffer) (receiveTime : TimeStamp) (p : Parsing)
    (returned : c.parseRequest b receiveTime = some p) (failed : p.ok = false) :
    (Repeatable c b p ↔ ∀ line ∈ (splitLines 13 10 b.content).1.head?, Nameless line) ∧
      (Refuses p.context b ↔ p.context.request = c.request) := by
  obtain ⟨state, buf, line, rest, lines, processed⟩ := parseRequest_failed returned failed
  have kept := (processRequestLine_state c line _ _ processed).trans state
  have first : (∀ l ∈ (splitLines 13 10 b.content).1.head?, Nameless l) ↔ Nameless line := by
    rw [lines]
    simp
  rw [first]
  by_cases nameless : Nameless line
  · obtain ⟨same, _⟩ := processRequestLine_nameless line nameless processed
    have refuses : Refuses p.context b := by
      intro more time r content
      rw [same] at processed ⊢
      obtain ⟨later, begins⟩ := splitLines_append_first b.content more line rest lines
      exact parseRequest_refuses time state line later (by rw [content, begins]) processed
    exact ⟨iff_of_true ⟨buf, by rw [same], by rw [same], refuses⟩ nameless,
      iff_of_true refuses (by rw [same])⟩
  · obtain ⟨unset, set_⟩ := processRequestLine_named line nameless processed
    have changed : p.context.request ≠ c.request := by
      intro same
      rw [same] at set_
      exact set_ unset
    have aborts : ¬ Refuses p.context b := by
      intro refuses
      obtain ⟨q, again, _⟩ := refuses [] receiveTime b (List.append_nil _).symm
      rw [parseRequest_asserts receiveTime kept line rest lines nameless set_] at again
      cases again
    exact ⟨iff_of_false (fun fine => changed fine.2.2.1) nameless, iff_of_false aborts changed⟩

end Failure

/-- A call on a new context with a single line that is refused. -/
theorem refused_call (line : Bytes) (oneLine : splitLines 13 10 (line ++ [13, 10]) = ([line], []))
    (refused : (create.processRequestLine line).map Prod.snd = some false) :
    ∃ b p, (splitLines 13 10 b.content).1 = [line] ∧ create.parseRequest b 0 = some p ∧
      p.hasMore = false ∧ p.ok = false := by
  obtain ⟨b, _, content⟩ := Buffer.append_content Buffer.fresh (line ++ [13, 10])
  rw [Buffer.fresh_content, List.nil_append] at content
  obtain ⟨⟨d, ok⟩, processed, no⟩ := Option.map_eq_some_iff.mp refused
  dsimp only at no
  subst no
  have lines : (splitLines 13 10 b.content).1 = [line] := by rw [content, oneLine]
  obtain ⟨p, returned, ended, failed⟩ :=
    parseRequest_refuses 0 rfl line [] lines processed
  exact ⟨b, p, lines, returned, ended, failed⟩

/-- A line that does not begin with a method. -/
theorem failed_parse_nameless :
    ∃ b p, create.parseRequest b 0 = some p ∧ p.ok = false ∧ Repeatable create b p := by
  obtain ⟨b, p, lines, returned, _, failed⟩ :=
    refused_call (ascii "BAD line") (by decide +kernel) (by decide +kernel)
  refine ⟨b, p, returned, failed, (failed_parse_iff create b 0 p returned failed).1.mpr ?_⟩
  rw [lines]
  intro line first
  cases first
  decide +kernel

/-- A request line without a version leaves its method behind, and trips the assertion of
setMethod when it is parsed again. -/
theorem failed_parse_method :
    ∃ b p, create.parseRequest b 0 = some p ∧ p.hasMore = false ∧ p.ok = false ∧
      p.context.request.method ≠ .kInvalid ∧ p.context.parseRequest b 0 = none ∧
      ¬ Repeatable create b p := by
  obtain ⟨b, p, lines, returned, ended, failed⟩ :=
    refused_call (ascii "GET /") (by decide +kernel) (by decide +kernel)
  obtain ⟨_, _, line, rest, same, processed⟩ := parseRequest_failed returned failed
  obtain ⟨rfl, rfl⟩ := List.cons.inj (lines.symm.trans same)
  have named : ¬ Nameless (ascii "GET /") := by decide +kernel
  obtain ⟨_, set_⟩ := processRequestLine_named _ named processed
  have kept := processRequestLine_state _ _ _ _ processed
  have none := parseRequest_asserts 0 kept _ _ lines named set_
  refine ⟨b, p, returned, ended, failed, set_, none, ?_⟩
  intro repeatable
  obtain ⟨q, again, _⟩ := repeatable.2.2.2 [] 0 b (List.append_nil _).symm
  rw [none] at again
  cases again

end Tundra.HttpContext
