import Mathlib.Data.List.Basic
import Tundra.Http.HttpContext

set_option autoImplicit false

/- parseRequest in terms of the lines in its buffer: it consumes whole lines only,
and what it does depends on nothing but them. -/
namespace Tundra.HttpContext

open Library

/-- The parse states in which the loop of parseRequest ends. -/
def Active (c : HttpContext) : Prop :=
  c.state = .kExpectRequestLine ∨ c.state = .kExpectHeaders

/-- The parser on complete lines: the context it ends with, whether the request line
was good, and the lines it leaves. -/
def parseLines (receiveTime : TimeStamp) (c : HttpContext) :
    List Bytes → Option (HttpContext × Bool × List Bytes)
  | [] => some (c, true, [])
  | line :: rest =>
      match c.state with
      | .kExpectRequestLine =>
          (c.processRequestLine line).bind fun (context, ok) =>
            if ok then
              parseLines receiveTime
                ⟨.kExpectHeaders, context.request.setReceiveTime receiveTime⟩ rest
            else some (context, false, line :: rest)
      | .kExpectHeaders =>
          if findByte line 58 ≠ line.length then
            parseLines receiveTime
              ⟨.kExpectHeaders, c.request.addHeader line (findByte line 58)⟩ rest
          else some (⟨.kGotAll, c.request⟩, true, rest)
      | .kExpectody | .kGotAll => some (c, true, line :: rest)

/-- What of the parsing state does not depend on the buffer's indices. -/
def Parsing.view (p : Parsing) : HttpContext × Bool × Bool × Bytes :=
  (p.context, p.ok, p.hasMore, p.buf.content)

theorem parseLoop_done (receiveTime : TimeStamp) (passes : Nat) (p : Parsing)
    (done : p.hasMore = false) : parseLoop receiveTime passes p = some p := by
  cases passes with
  | zero => rfl
  | succ passes => simp [parseLoop, done]

/-- The first line, as the parser finds it in the buffer. -/
theorem findCRLF_line (b : Buffer) (line : Bytes) (rest : List Bytes) (left : Bytes)
    (split : splitLines 13 10 b.content = (line :: rest, left)) :
    b.findCRLF = some line.length ∧ b.content.take line.length = line ∧
      ∃ r, b.retrieveUntil (line.length + 2) = some r ∧
        splitLines 13 10 r.content = (rest, left) := by
  have lines : (splitLines 13 10 b.content).1 = line :: rest := by rw [split]
  have whole := splitLines_first b.content line rest lines
  have within : line.length + 2 ≤ b.readableBytes := by
    rw [← Buffer.content_length, whole, List.length_append, List.length_cons, List.length_cons]
    omega
  obtain ⟨r, retrieved, content⟩ := Buffer.retrieveUntil_content b (line.length + 2) within
  refine ⟨?_, ?_, r, retrieved, ?_⟩
  · rw [Buffer.findCRLF, findPair_eq, lines]
    rfl
  · rw [whole, List.take_left]
  · rw [content, splitLines_drop b.content line rest lines, split]

theorem findCRLF_none (b : Buffer) (left : Bytes)
    (split : splitLines 13 10 b.content = ([], left)) : b.findCRLF = none := by
  rw [Buffer.findCRLF, findPair_eq, split]
  rfl

theorem parseLoop_lines (receiveTime : TimeStamp) (lines : List Bytes) (left : Bytes)
    (passes : Nat) (enough : lines.length < passes) (c : HttpContext) (active : c.Active)
    (b : Buffer) (split : splitLines 13 10 b.content = (lines, left)) :
    (parseLoop receiveTime passes ⟨c, b, true, true⟩).map Parsing.view =
      (parseLines receiveTime c lines).map fun r =>
        (r.1, r.2.1, false, unlines 13 10 r.2.2 ++ left) := by
  induction lines generalizing passes c b with
  | nil =>
      obtain ⟨passes, rfl⟩ : ∃ n, passes = n + 1 := ⟨passes - 1, by simp at enough; omega⟩
      have content : b.content = left := by
        have whole := unlines_splitLines (a := 13) (b := 10) b.content
        rw [split] at whole
        simpa using whole.symm
      have stop : parsePass receiveTime ⟨c, b, true, true⟩ = some ⟨c, b, true, false⟩ := by
        rcases active with state | state
        · simp only [parsePass, state, findCRLF_none b left split]
        · simp only [parsePass, state, findCRLF_none b left split]
      simp only [parseLoop, ↓reduceIte, stop, Option.bind_some]
      rw [parseLoop_done receiveTime passes _ rfl]
      simp [Parsing.view, parseLines, content]
  | cons line rest ih =>
      obtain ⟨passes, rfl⟩ : ∃ n, passes = n + 1 := ⟨passes - 1, by simp at enough; omega⟩
      have later : rest.length < passes := by simp at enough; omega
      obtain ⟨found, taken, r, retrieved, behind⟩ := findCRLF_line b line rest left split
      rcases active with state | state
      · simp only [parseLoop, ↓reduceIte, parsePass, state, found, taken, parseLines]
        cases processed : c.processRequestLine line with
        | none => rfl
        | some result =>
            obtain ⟨context, ok⟩ := result
            cases ok with
            | true =>
                simp only [Option.bind_some, ↓reduceIte, retrieved, Option.map_some]
                exact ih passes later _ (Or.inr rfl) r behind
            | false =>
                have whole := unlines_splitLines (a := 13) (b := 10) b.content
                rw [split] at whole
                simp only [Option.bind_some, Bool.false_eq_true, ↓reduceIte, Option.map_some]
                rw [parseLoop_done receiveTime passes _ rfl]
                simp [Parsing.view, ← whole]
      · simp only [parseLoop, ↓reduceIte, parsePass, state, found, taken, parseLines, retrieved,
          Option.map_some, Option.bind_some]
        by_cases colon : findByte line 58 = line.length
        · simp only [colon, ne_eq, not_true_eq_false, ↓reduceIte]
          rw [parseLoop_done receiveTime passes _ rfl]
          have whole := unlines_splitLines (a := 13) (b := 10) r.content
          rw [behind] at whole
          simp [Parsing.view, ← whole]
        · simp only [colon, ne_eq, not_false_eq_true, ↓reduceIte]
          exact ih passes later _ (Or.inr rfl) r behind

theorem splitLines_count (text : Bytes) : (splitLines 13 10 text).1.length ≤ text.length := by
  fun_induction splitLines (13 : UInt8) 10 text <;> grind

/-- parseRequest parses the lines of its buffer, and its loop ends. -/
theorem parseRequest_lines (receiveTime : TimeStamp) (c : HttpContext) (active : c.Active)
    (b : Buffer) :
    (parseRequest c b receiveTime).map Parsing.view =
      (parseLines receiveTime c (splitLines 13 10 b.content).1).map fun r =>
        (r.1, r.2.1, false, unlines 13 10 r.2.2 ++ (splitLines 13 10 b.content).2) := by
  have count := splitLines_count b.content
  rw [Buffer.content_length] at count
  exact parseLoop_lines receiveTime _ _ _ (by omega) c active b rfl

/-- The line is a header: it has a colon. The first line without one ends them. -/
def isHeader (line : Bytes) : Bool := findByte line 58 ≠ line.length

def fieldOf (line : Bytes) : Bytes := headerField line (findByte line 58)
def valueOf (line : Bytes) : Bytes := headerValue line (findByte line 58)

/-- The headers after further header lines; a repeated field keeps its last value. -/
def addHeaders (headers : Headers) (lines : List Bytes) : Headers :=
  lines.foldl (fun m line => m.insert (fieldOf line) (valueOf line)) headers

theorem addHeaders_append (headers : Headers) (xs ys : List Bytes) :
    addHeaders headers (xs ++ ys) = addHeaders (addHeaders headers xs) ys :=
  List.foldl_append

/-- A field that the lines do not name keeps its value, and one that they name gets
its value from them alone. -/
theorem addHeaders_find (lines : List Bytes) (field : Bytes) :
    (field ∉ lines.map fieldOf →
      ∀ headers, (addHeaders headers lines).find field = headers.find field) ∧
    (field ∈ lines.map fieldOf →
      ∃ value, ∀ headers, (addHeaders headers lines).find field = some value) := by
  induction lines with
  | nil => exact ⟨fun _ _ => rfl, fun member => by cases member⟩
  | cons line rest ih =>
      have step (headers : Headers) : addHeaders headers (line :: rest) =
          addHeaders (headers.insert (fieldOf line) (valueOf line)) rest := rfl
      constructor
      · intro absent headers
        rw [List.map_cons, List.mem_cons, not_or] at absent
        rw [step, ih.1 absent.2, OrderedMap.find_insert_of_ne _ _ (Ne.symm absent.1)]
      · intro member
        by_cases later : field ∈ rest.map fieldOf
        · obtain ⟨value, found⟩ := ih.2 later
          exact ⟨value, fun headers => by rw [step, found]⟩
        · have here : fieldOf line = field := by
            rcases List.mem_cons.mp member with same | behind
            · exact same.symm
            · exact absurd behind later
          refine ⟨valueOf line, fun headers => ?_⟩
          rw [step, ih.1 later, here, OrderedMap.find_insert_self]

/-- Leaving out some header lines at the front changes nothing exactly when every
field they name is named again behind them. -/
theorem addHeaders_skip (xs ys : List Bytes) :
    addHeaders OrderedMap.empty ys = addHeaders OrderedMap.empty (xs ++ ys) ↔
      ∀ x ∈ xs, fieldOf x ∈ ys.map fieldOf := by
  rw [addHeaders_append]
  constructor
  · intro same x member
    by_contra absent
    obtain ⟨value, found⟩ :=
      (addHeaders_find xs (fieldOf x)).2 (List.mem_map_of_mem member)
    have missing := (addHeaders_find ys (fieldOf x)).1 absent
    have clash := congrArg (OrderedMap.find · (fieldOf x)) same
    simp only [missing, found, OrderedMap.find_empty] at clash
    cases clash
  · intro again
    apply OrderedMap.ext_find
    intro field
    by_cases named : field ∈ ys.map fieldOf
    · obtain ⟨value, found⟩ := (addHeaders_find ys field).2 named
      rw [found, found]
    · have unnamed : field ∉ xs.map fieldOf := by
        intro member
        obtain ⟨x, inside, same⟩ := List.mem_map.mp member
        exact named (same ▸ again x inside)
      rw [(addHeaders_find ys field).1 named, (addHeaders_find ys field).1 named,
        (addHeaders_find xs field).1 unnamed]

/-- The request a request line makes of a fresh one, if it is accepted. -/
def requestLine (line : Bytes) : Option HttpRequest :=
  match create.processRequestLine line with
  | some (c, true) => some c.request
  | _ => none

theorem setTarget_kept (r : HttpRequest) (target : Bytes) :
    (setTarget r target).headers = r.headers ∧
      (setTarget r target).receiveTime = r.receiveTime := by
  unfold setTarget
  dsimp only
  split
  · exact ⟨rfl, rfl⟩
  · exact ⟨rfl, rfl⟩

theorem setProtocol_kept (r : HttpRequest) (protocol : Bytes) :
    (setProtocol r protocol).1.headers = r.headers ∧
      (setProtocol r protocol).1.receiveTime = r.receiveTime := by
  unfold setProtocol
  split
  · split
    · exact ⟨rfl, rfl⟩
    · split
      · exact ⟨rfl, rfl⟩
      · exact ⟨rfl, rfl⟩
  · exact ⟨rfl, rfl⟩

/-- On a fresh context the assertion of setMethod holds, and neither the parse state
nor the headers change. -/
theorem processRequestLine_fresh (line : Bytes) :
    ∃ c ok, create.processRequestLine line = some (c, ok) ∧ c.state = .kExpectRequestLine ∧
      c.request.headers = OrderedMap.empty ∧ c.request.receiveTime = 0 := by
  simp only [processRequestLine, create, HttpRequest.setMethod, HttpRequest.create, ↓reduceIte,
    Option.map_some]
  split
  · split
    · split
      · refine ⟨_, _, rfl, rfl, ?_, ?_⟩
        · exact ((setProtocol_kept _ _).1).trans (setTarget_kept _ _).1
        · exact ((setProtocol_kept _ _).2).trans (setTarget_kept _ _).2
      · exact ⟨_, _, rfl, rfl, rfl, rfl⟩
    · exact ⟨_, _, rfl, rfl, rfl, rfl⟩
  · exact ⟨_, _, rfl, rfl, rfl, rfl⟩

theorem requestLine_fresh (line : Bytes) (r : HttpRequest) (accepted : requestLine line = some r) :
    r.headers = OrderedMap.empty ∧ r.receiveTime = 0 := by
  obtain ⟨c, ok, processed, _, headers, time⟩ := processRequestLine_fresh line
  unfold requestLine at accepted
  rw [processed] at accepted
  cases ok with
  | true =>
      cases accepted
      exact ⟨headers, time⟩
  | false => cases accepted

/-- A fresh parse that fails on its first line leaves everything in place. -/
theorem parseLines_refused (receiveTime : TimeStamp) (line : Bytes) (rest : List Bytes)
    (refused : requestLine line = none) :
    ∃ c, parseLines receiveTime create (line :: rest) = some (c, false, line :: rest) ∧
      c.gotAll = false := by
  obtain ⟨c, ok, processed, state, _, _⟩ := processRequestLine_fresh line
  unfold requestLine at refused
  rw [processed] at refused
  cases ok with
  | true => cases refused
  | false =>
      refine ⟨c, ?_, ?_⟩
      · simp only [parseLines, create] at processed ⊢
        rw [processed]
        rfl
      · rw [gotAll, state]
        rfl

theorem parseLines_accepted (receiveTime : TimeStamp) (line : Bytes) (rest : List Bytes)
    (r : HttpRequest) (accepted : requestLine line = some r) :
    parseLines receiveTime create (line :: rest) =
      parseLines receiveTime ⟨.kExpectHeaders, r.setReceiveTime receiveTime⟩ rest := by
  obtain ⟨c, ok, processed, _, _, _⟩ := processRequestLine_fresh line
  unfold requestLine at accepted
  rw [processed] at accepted
  cases ok with
  | true =>
      cases accepted
      simp only [parseLines, create] at processed ⊢
      rw [processed]
      rfl
  | false => cases accepted

/-- Header lines are taken one by one. -/
theorem parseLines_headers (receiveTime : TimeStamp) (r : HttpRequest) (lines rest : List Bytes)
    (headers : ∀ line ∈ lines, isHeader line = true) :
    parseLines receiveTime ⟨.kExpectHeaders, r⟩ (lines ++ rest) =
      parseLines receiveTime
        ⟨.kExpectHeaders, { r with headers := addHeaders r.headers lines }⟩ rest := by
  induction lines generalizing r with
  | nil => rfl
  | cons line lines ih =>
      have colon : findByte line 58 ≠ line.length := by
        simpa [isHeader] using headers line List.mem_cons_self
      rw [List.cons_append, parseLines]
      simp only [colon, ne_eq, not_false_eq_true, ↓reduceIte]
      exact ih _ fun l member => headers l (List.mem_cons_of_mem line member)

/-- The first line without a colon ends the request. -/
theorem parseLines_end (receiveTime : TimeStamp) (r : HttpRequest) (line : Bytes)
    (rest : List Bytes) (last : isHeader line = false) :
    parseLines receiveTime ⟨.kExpectHeaders, r⟩ (line :: rest) =
      some (⟨.kGotAll, r⟩, true, rest) := by
  have colon : findByte line 58 = line.length := by simpa [isHeader] using last
  simp only [parseLines, colon, ne_eq, not_true_eq_false, ↓reduceIte]

/-- Behind an accepted request line nothing is refused. -/
theorem parseLines_taken (receiveTime : TimeStamp) (line : Bytes) (rest : List Bytes)
    (r : HttpRequest) (accepted : requestLine line = some r) :
    ∃ c left, parseLines receiveTime create (line :: rest) = some (c, true, left) := by
  rw [parseLines_accepted receiveTime line rest r accepted]
  generalize r.setReceiveTime receiveTime = request
  induction rest generalizing request with
  | nil => exact ⟨_, _, rfl⟩
  | cons line rest ih =>
      unfold parseLines
      dsimp only
      split
      · exact ih _
      · exact ⟨_, _, rfl⟩

end Tundra.HttpContext
