import Mathlib.Data.List.DropRight
import Tundra.Http.RequestGrammar

set_option autoImplicit false

/- The requests that a client writes, and that parseRequest reads them back. -/
namespace Tundra

open Library

/-- A header field as it is written: white space may stand around the value, which has none
at its own ends. -/
structure HeaderField where
  name : Bytes
  before : Bytes
  value : Bytes
  after : Bytes
  noColon : 58 ∉ name
  blank : ∀ x ∈ before ++ after, isspace x = true
  begins : ∀ x ∈ value.head?, isspace x = false
  ends : ∀ x ∈ value.getLast?, isspace x = false
  oneLine : NoPair 13 10 (name ++ 58 :: (before ++ value ++ after))

def HeaderField.text (f : HeaderField) : Bytes := f.name ++ 58 :: (f.before ++ f.value ++ f.after)

/-- The request line, the header lines and an empty line, each with its CRLF. -/
def RequestLine.render (l : RequestLine) (fields : List HeaderField) : Bytes :=
  unlines 13 10 (l.text :: (fields.map HeaderField.text ++ [[]]))

/-- The value of the last field of a name. -/
def lastValue (fields : List HeaderField) (name : Bytes) : Option Bytes :=
  (fields.reverse.find? fun f => f.name = name).map HeaderField.value

namespace HttpContext

/-- White space on both sides of a text without any at its ends. -/
theorem trim_eq (p : UInt8 → Bool) (before text after : Bytes) (left : ∀ x ∈ before, p x = true)
    (right : ∀ x ∈ after, p x = true) (begins : ∀ x ∈ text.head?, p x = false)
    (ends : ∀ x ∈ text.getLast?, p x = false) :
    ((before ++ text ++ after).dropWhile p).rdropWhile p = text := by
  rw [List.append_assoc, List.dropWhile_append_of_pos left]
  cases text with
  | nil =>
      have all : after.dropWhile p = [] := List.dropWhile_eq_nil_iff.mpr right
      rw [List.nil_append, all]
      rfl
  | cons x rest =>
      have first : p x = false := begins x rfl
      have stays : (x :: rest ++ after).dropWhile p = x :: rest ++ after := by
        rw [List.cons_append, List.dropWhile_cons_of_neg (by simp [first])]
      rw [stays, List.rdropWhile, List.reverse_append,
        List.dropWhile_append_of_pos (by simpa using right)]
      apply List.rdropWhile_eq_self_iff.mpr
      intro nonempty
      rw [ends _ (List.getLast?_eq_some_getLast nonempty)]
      exact Bool.false_ne_true

theorem text_header (f : HeaderField) :
    isHeader f.text = true ∧ fieldOf f.text = f.name ∧ valueOf f.text = f.value := by
  have colon : findByte f.text 58 = f.name.length := findByte_append 58 _ _ f.noColon
  have more : f.name.length ≠ f.text.length := by simp [HeaderField.text]
  have behind : f.text.drop (f.name.length + 1) = f.before ++ f.value ++ f.after := by
    simp [HeaderField.text]
  have blank := List.forall_mem_append.mp f.blank
  refine ⟨?_, ?_, ?_⟩
  · rw [isHeader, colon]
    exact decide_eq_true more
  · rw [fieldOf, colon, headerField, HeaderField.text, List.take_left]
  · rw [valueOf, colon, headerValue, behind,
      trim_eq isspace _ _ _ blank.1 blank.2 f.begins f.ends]

/-- A repeated field keeps the value of its last line. -/
theorem addHeaders_last (fields : List HeaderField) (name : Bytes) :
    (addHeaders OrderedMap.empty (fields.map HeaderField.text)).find name =
      lastValue fields name := by
  induction fields using List.reverseRecOn with
  | nil => rfl
  | append_singleton front f ih =>
      obtain ⟨_, field, value⟩ := text_header f
      have step : addHeaders OrderedMap.empty ((front ++ [f]).map HeaderField.text) =
          (addHeaders OrderedMap.empty (front.map HeaderField.text)).insert f.name f.value := by
        rw [List.map_append, addHeaders_append, ← field, ← value]
        rfl
      rw [step, lastValue, List.reverse_append, List.reverse_singleton, List.singleton_append]
      by_cases same : f.name = name
      · rw [same, OrderedMap.find_insert_self, List.find?_cons_of_pos (by simpa using same)]
        rfl
      · rw [OrderedMap.find_insert_of_ne _ _ same, List.find?_cons_of_neg (by simpa using same),
          ih]
        rfl

theorem text_noPair (l : RequestLine) (oneLine : NoPair 13 10 l.target) :
    NoPair 13 10 l.text := by
  have name : NoPair 13 10 l.method.methodString := by
    apply NoPair.of_notMem
    cases l.method <;> decide
  have protocol : NoPair 13 10 l.protocol := by
    apply NoPair.of_notMem
    unfold RequestLine.protocol
    cases l.version <;> decide
  exact name.join 32 (by decide) (by decide)
    (oneLine.join 32 (by decide) (by decide) protocol)

theorem takeWhile_findByte (b : UInt8) (text : Bytes) :
    text.take (findByte text b) = text.takeWhile (· ≠ b) ∧
      text.drop (findByte text b) = text.dropWhile (· ≠ b) := by
  rw [List.takeWhile_eq_take_findIdx_not, List.dropWhile_eq_drop_findIdx_not, findByte, List.idxOf]
  have same : (fun x : UInt8 => x == b) = fun x => !decide (x ≠ b) := by
    funext x
    by_cases equal : x = b <;> simp [equal]
  rw [same]
  exact ⟨rfl, rfl⟩

/-- The request that the parser ends with. -/
theorem parseLines_rendered (receiveTime : TimeStamp) (l : RequestLine)
    (fields : List HeaderField) (more : List Bytes) :
    parseLines receiveTime create (l.text :: (fields.map HeaderField.text ++ [] :: more)) =
      some (⟨.kGotAll, { l.request with
        receiveTime := receiveTime
        headers := addHeaders OrderedMap.empty (fields.map HeaderField.text) }⟩, true, more) := by
  have accepted : requestLine l.text = some l.request := by
    rw [requestLine, processRequestLine_text create rfl l]
  have colons : ∀ line ∈ fields.map HeaderField.text, isHeader line = true := by
    intro line member
    obtain ⟨f, _, rfl⟩ := List.mem_map.mp member
    exact (text_header f).1
  rw [parseLines_accepted receiveTime _ _ _ accepted, parseLines_headers _ _ _ _ colons,
    parseLines_end _ _ _ _ (by decide)]
  rfl

/-- Every request that is written is read back, whatever stands behind it. -/
theorem parseRequest_rendered (l : RequestLine) (oneLine : NoPair 13 10 l.target)
    (fields : List HeaderField) (rest : Bytes) (b : Buffer)
    (holds : b.content = l.render fields ++ rest) (receiveTime : TimeStamp) :
    ∃ p, create.parseRequest b receiveTime = some p ∧ p.hasMore = false ∧ p.ok = true ∧
      p.context.gotAll = true ∧ p.context.request.method = l.method ∧
      p.context.request.version = l.version ∧
      p.context.request.path = l.target.takeWhile (· ≠ 63) ∧
      p.context.request.query = l.target.dropWhile (· ≠ 63) ∧
      (∀ name, p.context.request.headers.find name = lastValue fields name) ∧
      p.buf.content = rest := by
  have lines : splitLines 13 10 b.content =
      (l.text :: (fields.map HeaderField.text ++ [] :: (splitLines 13 10 rest).1),
        (splitLines 13 10 rest).2) := by
    rw [holds, RequestLine.render, splitLines_unlines (by decide)]
    · simp
    · intro line member
      rcases List.mem_cons.mp member with rfl | member
      · exact text_noPair l oneLine
      · rcases List.mem_append.mp member with field | last
        · obtain ⟨f, _, rfl⟩ := List.mem_map.mp field
          exact f.oneLine
        · rw [List.mem_singleton.mp last]
          exact noPair_nil 13 10
  have parsed := parseRequest_lines receiveTime create (Or.inl rfl) b
  rw [lines, parseLines_rendered receiveTime l fields, Option.map_some] at parsed
  obtain ⟨p, returned, view⟩ := Option.map_eq_some_iff.mp parsed
  simp only [Parsing.view, Prod.mk.injEq, unlines_splitLines] at view
  obtain ⟨context, ok, hasMore, content⟩ := view
  obtain ⟨path, query⟩ := takeWhile_findByte 63 l.target
  refine ⟨p, returned, hasMore, ok, ?_⟩
  rw [context]
  exact ⟨rfl, rfl, rfl, path, query, addHeaders_last fields, content⟩

/-- Two fields of one name, the second without a value, and bytes behind the request. -/
theorem parseRequest_rendered_twice :
    ∃ b p, b.content = ascii "GET /?q HTTP/1.0\r\nA: x:y\r\nA:\t\r\n\r\nPOST" ∧
      create.parseRequest b 0 = some p ∧ p.context.request.query = ascii "?q" ∧
      p.context.request.headers.find (ascii "A") = some [] ∧ p.buf.content = ascii "POST" := by
  let l : RequestLine := ⟨.kGet, ascii "/?q", .kHttp10, by decide, by decide, by decide⟩
  let first : HeaderField := ⟨ascii "A", ascii " ", ascii "x:y", [], by decide, by decide +kernel,
    by decide +kernel, by decide +kernel, NoPair.of_notMem (by decide)⟩
  let second : HeaderField := ⟨ascii "A", [], [], ascii "\t", by decide, by decide +kernel,
    by decide +kernel, by decide +kernel, NoPair.of_notMem (by decide)⟩
  obtain ⟨b, _, content⟩ := Buffer.append_content Buffer.fresh
    (ascii "GET /?q HTTP/1.0\r\nA: x:y\r\nA:\t\r\n\r\nPOST")
  rw [Buffer.fresh_content, List.nil_append] at content
  have text : ascii "GET /?q HTTP/1.0\r\nA: x:y\r\nA:\t\r\n\r\nPOST" =
      l.render [first, second] ++ ascii "POST" := by decide +kernel
  obtain ⟨p, parsed, _, _, _, _, _, _, query, headers, left⟩ :=
    parseRequest_rendered l (NoPair.of_notMem (by decide)) [first, second] (ascii "POST") b
      (content.trans text) 0
  exact ⟨b, p, content, parsed, query, headers (ascii "A"), left⟩

end HttpContext
end Tundra
