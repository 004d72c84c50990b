import Mathlib.Data.List.Basic
import Tundra.Http.HttpServer

set_option autoImplicit false

/- Where a request ends. The parser takes every line of the header section without a
colon for its end, the empty line or another one. -/
namespace Tundra.HttpContext

open Library

/-- The complete lines that the parser may take for headers: those behind a request
line that it accepts, or all of them when it has accepted one before. -/
def headerSection (c : HttpContext) (lines : List Bytes) : List Bytes :=
  match c.state, lines with
  | .kExpectHeaders, lines => lines
  | .kExpectRequestLine, line :: rest =>
      match c.processRequestLine line with
      | some (_, true) => rest
      | _ => []
  | _, _ => []

/-- Every line ahead of the first empty one has a colon. -/
def Delimited (lines : List Bytes) : Prop := ∀ line ∈ lines.takeWhile (· ≠ []), isHeader line = true

/-- The request is complete only with an empty line: the bytes taken end in CR LF, right
behind the CR LF of the line before or at the start of the buffer, when that line has been
taken by an earlier call. -/
def EndsAtEmptyLine (c : HttpContext) (b : Buffer) (receiveTime : TimeStamp) : Prop :=
  ∀ p, c.parseRequest b receiveTime = some p → p.context.gotAll = true →
    ∃ taken, b.content = taken ++ 13 :: 10 :: p.buf.content ∧
      (taken = [] ∧ c.state = .kExpectHeaders ∨ ∃ front, taken = front ++ [13, 10])

theorem processRequestLine_state (c : HttpContext) (line : Bytes) (d : HttpContext) (ok : Bool)
    (processed : c.processRequestLine line = some (d, ok)) : d.state = c.state := by
  unfold processRequestLine at processed
  dsimp only at processed
  split at processed
  · obtain ⟨result, _, same⟩ := Option.map_eq_some_iff.mp processed
    split at same
    · split at same
      · cases same
        rfl
      · cases same
        rfl
    · cases same
      rfl
  · cases processed
    rfl

theorem delimited_headers (lines : List Bytes) (headers : ∀ l ∈ lines, isHeader l = true) :
    Delimited lines := by
  intro line member
  exact headers line ((List.takeWhile_sublist _).subset member)

/-- Up to the first line without a colon, that line decides. -/
theorem delimited_iff (headers : List Bytes) (last : Bytes) (more : List Bytes)
    (colons : ∀ l ∈ headers, isHeader l = true) (ends : isHeader last = false) :
    Delimited (headers ++ last :: more) ↔ last = [] := by
  have filled : ∀ l ∈ headers, decide (l ≠ []) = true := by
    intro l member
    have colon := colons l member
    rw [decide_eq_true_iff]
    rintro rfl
    exact absurd colon (by decide)
  unfold Delimited
  rw [List.takeWhile_append_of_pos filled]
  constructor
  · intro all
    by_contra some
    have kept : last ∈ headers ++ (last :: more).takeWhile (· ≠ []) := by
      rw [List.takeWhile_cons_of_pos (by simpa using some)]
      simp
    rw [all last kept] at ends
    cases ends
  · rintro rfl line member
    rw [List.takeWhile_cons_of_neg (by simp), List.append_nil] at member
    exact colons line member

/-- How the parse of the header section ends, in terms of its first line without a colon. -/
theorem parseLines_section (receiveTime : TimeStamp) (r : HttpRequest) (lines : List Bytes) :
    (Delimited lines ∧ ∃ d, parseLines receiveTime ⟨.kExpectHeaders, r⟩ lines =
      some (d, true, []) ∧ d.gotAll = false) ∨
    ∃ front last more d, lines = front ++ last :: more ∧ (Delimited lines ↔ last = []) ∧
      parseLines receiveTime ⟨.kExpectHeaders, r⟩ lines = some (d, true, more) ∧
      d.gotAll = true := by
  rcases HttpServer.span_headers lines with all | ⟨headers, last, more, rfl, colons, ends⟩
  · left
    have taken := parseLines_headers receiveTime r lines [] all
    rw [List.append_nil, parseLines] at taken
    exact ⟨delimited_headers lines all, _, taken, rfl⟩
  · right
    have taken := parseLines_headers receiveTime r headers (last :: more) colons
    rw [parseLines_end _ _ _ _ ends] at taken
    exact ⟨headers, last, more, _, rfl, delimited_iff headers last more colons ends, taken, rfl⟩

/-- The same from any context: the parse is not complete, or its last line decides. -/
theorem parseLines_boundary (receiveTime : TimeStamp) (c : HttpContext) (active : c.Active)
    (lines : List Bytes) :
    (Delimited (c.headerSection lines) ∧
      ∀ d ok left, parseLines receiveTime c lines = some (d, ok, left) → d.gotAll = false) ∨
    ∃ front last more d, lines = front ++ last :: more ∧
      (Delimited (c.headerSection lines) ↔ last = []) ∧
      (front = [] → c.state = .kExpectHeaders) ∧
      parseLines receiveTime c lines = some (d, true, more) ∧ d.gotAll = true := by
  obtain ⟨state, r⟩ := c
  have nothing : Delimited [] := delimited_headers [] (by simp)
  rcases active with rfl | rfl
  · cases lines with
    | nil =>
        refine Or.inl ⟨nothing, fun d ok left parsed => ?_⟩
        cases parsed
        rfl
    | cons line rest =>
        simp only [headerSection, parseLines]
        cases processed : processRequestLine ⟨.kExpectRequestLine, r⟩ line with
        | none => exact Or.inl ⟨nothing, fun d ok left parsed => by cases parsed⟩
        | some result =>
            obtain ⟨d, ok⟩ := result
            cases ok with
            | false =>
                refine Or.inl ⟨nothing, fun e ok left parsed => ?_⟩
                cases parsed
                rw [gotAll, processRequestLine_state _ line d false processed]
                rfl
            | true =>
                simp only [Option.bind_some, ↓reduceIte]
                rcases parseLines_section receiveTime (d.request.setReceiveTime receiveTime) rest
                  with ⟨clean, e, taken, going⟩ |
                    ⟨front, last, more, e, whole, decides, taken, done⟩
                · refine Or.inl ⟨clean, fun e' ok left parsed => ?_⟩
                  rw [taken] at parsed
                  cases parsed
                  exact going
                · refine Or.inr ⟨line :: front, last, more, e, ?_, decides, by simp, taken, done⟩
                  rw [whole, List.cons_append]
  · simp only [headerSection]
    rcases parseLines_section receiveTime r lines
      with ⟨clean, e, taken, going⟩ | ⟨front, last, more, e, whole, decides, taken, done⟩
    · refine Or.inl ⟨clean, fun e' ok left parsed => ?_⟩
      rw [taken] at parsed
      cases parsed
      exact going
    · exact Or.inr ⟨front, last, more, e, whole, decides, fun _ => trivial, taken, done⟩

/-- The bytes ahead of the closing CR LF, when the parse is complete with `last`. -/
theorem ends_empty_iff (text : Bytes) (front : List Bytes) (last : Bytes) (more : List Bytes)
    (lines : (splitLines 13 10 text).1 = front ++ last :: more) (first : Prop)
    (early : front = [] → first) :
    (∃ taken, text = taken ++ 13 :: 10 :: (unlines 13 10 more ++ (splitLines 13 10 text).2) ∧
      (taken = [] ∧ first ∨ ∃ before, taken = before ++ [13, 10])) ↔ last = [] := by
  have whole := unlines_splitLines (a := 13) (b := 10) text
  rw [lines, unlines_append, unlines_cons] at whole
  have cut : text = (unlines 13 10 front ++ last) ++
      13 :: 10 :: (unlines 13 10 more ++ (splitLines 13 10 text).2) := by
    simpa using whole.symm
  constructor
  · rintro ⟨taken, same, ends⟩
    have front_eq := List.append_cancel_right (cut.symm.trans same)
    rcases ends with ⟨none, _⟩ | ⟨before, some⟩
    · rw [none] at front_eq
      exact (List.append_eq_nil_iff.mp front_eq).2
    · rw [some] at front_eq
      apply unlines_end 13 10 (by decide) front last before ?_ front_eq
      intro head
      exact splitLines_no_pair text last (by rw [lines]; simp) head []
  · rintro rfl
    refine ⟨unlines 13 10 front, by simpa using cut, ?_⟩
    rcases List.eq_nil_or_concat front with none | ⟨others, line, some⟩
    · left
      exact ⟨by rw [none]; rfl, early none⟩
    · right
      refine ⟨unlines 13 10 others ++ line, ?_⟩
      rw [some, List.concat_eq_append, unlines_append]
      simp

/-- The request ends at an empty line exactly when the header section has no other line
without a colon ahead of it. -/
theorem parseRequest_boundary_iff (c : HttpContext) (active : c.Active) (b : Buffer)
    (receiveTime : TimeStamp) :
    EndsAtEmptyLine c b receiveTime ↔
      Delimited (c.headerSection (splitLines 13 10 b.content).1) := by
  have parsed := parseRequest_lines receiveTime c active b
  unfold EndsAtEmptyLine
  rcases parseLines_boundary receiveTime c active (splitLines 13 10 b.content).1
    with ⟨clean, going⟩ | ⟨front, last, more, d, whole, decides, early, taken, done⟩
  · refine ⟨fun _ => clean, fun _ p called got => ?_⟩
    rw [called, Option.map_some] at parsed
    obtain ⟨⟨e, ok, left⟩, lines, view⟩ := Option.map_eq_some_iff.mp parsed.symm
    simp only [Parsing.view, Prod.mk.injEq] at view
    rw [← view.1, going e ok left lines] at got
    cases got
  · rw [decides, ← ends_empty_iff b.content front last more whole _ early]
    rw [taken, Option.map_some] at parsed
    obtain ⟨p, called, view⟩ := Option.map_eq_some_iff.mp parsed
    simp only [Parsing.view, Prod.mk.injEq] at view
    obtain ⟨context, _, _, left⟩ := view
    constructor
    · intro ends
      have boundary := ends p called (by rw [context, done])
      rwa [left] at boundary
    · intro boundary q again _
      rw [called, Option.some.injEq] at again
      rw [← again, left]
      exact boundary

theorem parseRequest_boundary_header :
    ∃ b, b.content = ascii "GET / HTTP/1.1\r\nHost: a\r\n\r\n" ∧ EndsAtEmptyLine create b 0 := by
  obtain ⟨b, _, content⟩ := Buffer.append_content Buffer.fresh
    (ascii "GET / HTTP/1.1\r\nHost: a\r\n\r\n")
  rw [Buffer.fresh_content, List.nil_append] at content
  refine ⟨b, content, (parseRequest_boundary_iff create (Or.inl rfl) b 0).mpr ?_⟩
  rw [content]
  have lines : create.headerSection (splitLines 13 10
      (ascii "GET / HTTP/1.1\r\nHost: a\r\n\r\n")).1 = [ascii "Host: a", []] := by
    decide +kernel
  rw [lines]
  exact (delimited_iff [ascii "Host: a"] [] [] (by decide +kernel) (by decide)).mpr rfl

/-- A line without a colon in front of a header: the request is complete there, and the
header is left for the next one. -/
theorem parseRequest_inside_headers :
    ∃ b p, b.content = ascii "GET / HTTP/1.1\r\nHost\r\nA: b\r\n\r\n" ∧
      create.parseRequest b 0 = some p ∧ p.context.gotAll = true ∧
      p.buf.content = ascii "A: b\r\n\r\n" ∧ ¬ EndsAtEmptyLine create b 0 := by
  have seen : ((Buffer.fresh.append (ascii "GET / HTTP/1.1\r\nHost\r\nA: b\r\n\r\n")).bind
      fun b => (create.parseRequest b 0).map fun p =>
        (b.content, p.context.gotAll, p.buf.content)) =
      some (ascii "GET / HTTP/1.1\r\nHost\r\nA: b\r\n\r\n", true, ascii "A: b\r\n\r\n") := by
    decide +kernel
  obtain ⟨b, _, parsed⟩ := Option.bind_eq_some_iff.mp seen
  obtain ⟨p, called, view⟩ := Option.map_eq_some_iff.mp parsed
  simp only [Prod.mk.injEq] at view
  obtain ⟨content, got, left⟩ := view
  refine ⟨b, p, content, called, got, left, ?_⟩
  intro ends
  obtain ⟨taken, same, boundary⟩ := ends p called got
  rw [content, left] at same
  have whole : ascii "GET / HTTP/1.1\r\nHost" ++ 13 :: 10 :: ascii "A: b\r\n\r\n" =
      ascii "GET / HTTP/1.1\r\nHost\r\nA: b\r\n\r\n" := by decide +kernel
  rw [← whole] at same
  have front := List.append_cancel_right same
  rcases boundary with ⟨none, _⟩ | ⟨before, closed⟩
  · rw [none] at front
    exact absurd front (by decide +kernel)
  · have last : (ascii "GET / HTTP/1.1\r\nHost").getLast? = some 10 := by
      rw [front, closed]
      simp
    exact absurd last (by decide +kernel)

end Tundra.HttpContext
