import Mathlib.Data.List.Basic
import Tundra.Library.OrderedMap
import Tundra.Library.Reader
import Tundra.Http.HttpResponse

set_option autoImplicit false

/- What a client makes of the responses it receives one behind the other. -/
namespace Tundra

open Library

/-- A response as its receiver sees it. -/
structure Message where
  statusCode : Nat
  statusMessage : Bytes
  headers : OrderedMap Bytes Bytes
  body : Bytes
deriving DecidableEq

namespace Message

def isdigit (c : UInt8) : Bool := 48 ≤ c && c ≤ 57

def readNumber (text : Bytes) : Option Nat :=
  if text ≠ [] ∧ text.all isdigit = true then
    some (Nat.ofDigitChars 10 (text.map fun c => Char.ofNat c.toNat) 0)
  else none

/-- HTTP/1.1, a code and a message, with a space between them. -/
def readStatusLine (line : Bytes) : Option (Nat × Bytes) :=
  (Reader.upTo 32 line).bind fun (version, rest) =>
    if version = ascii "HTTP/1.1" then
      (Reader.upTo 32 rest).bind fun (code, message) =>
        (readNumber code).map fun statusCode => (statusCode, message)
    else none

/-- A field name, a colon, a space and the value. -/
def readField (line : Bytes) : Option (Bytes × Bytes) :=
  (Reader.upTo 58 line).bind fun (key, rest) =>
    match rest with
    | 32 :: value => some (key, value)
    | _ => none

/-- The body has the length that the headers announce, or else reaches to the end. -/
def readBody (headers : OrderedMap Bytes Bytes) : Reader UInt8 Bytes := fun text =>
  match headers.find (ascii "Content-Length") with
  | some digits => (readNumber digits).bind fun length =>
      if length ≤ text.length then some (text.take length, text.drop length) else none
  | none => some (text, [])

/-- A status line, header lines up to an empty line, and a body. -/
def read : Reader UInt8 Message := fun text =>
  (Reader.line 13 10 text).bind fun (line, text) =>
    (readStatusLine line).bind fun (statusCode, statusMessage) =>
      (Reader.block 13 10 text.length text).bind fun (lines, text) =>
        (lines.mapM readField).bind fun fields =>
          let headers := OrderedMap.empty.insertAll fields
          (readBody headers text).map fun (body, rest) =>
            (⟨statusCode, statusMessage, headers, body⟩, rest)

/-- Responses until nothing is left. -/
def readAll (stream : Bytes) : Option (List Message) := Reader.many read stream.length stream

theorem readNumber_decimal (n : Nat) : readNumber (decimal n) = some n := by
  have digits : (decimal n).all isdigit = true := by
    rw [List.all_eq_true]
    intro c member
    obtain ⟨lower, upper⟩ := decimal_digit n c member
    simp only [isdigit, lower, upper, decide_true, Bool.and_self]
  rw [readNumber, if_pos ⟨decimal_ne_nil n, digits⟩, decimal_chars, Nat.ofDigitChars_ten_toDigits]

theorem readStatusLine_render (code : Nat) (message : Bytes) :
    readStatusLine (ascii "HTTP/1.1" ++ 32 :: (decimal code ++ 32 :: message)) =
      some (code, message) := by
  have noSpace : 32 ∉ decimal code := by
    intro member
    have range := decimal_digit code 32 member
    revert range
    decide
  rw [readStatusLine, Reader.upTo_append _ _ _ (by decide), Option.bind_some]
  dsimp only
  rw [if_pos rfl, Reader.upTo_append _ _ _ noSpace, Option.bind_some]
  dsimp only
  rw [readNumber_decimal, Option.map_some]

end Message

namespace HttpResponse

/-- The fields that appendToBuffer adds by itself. -/
def generated (r : HttpResponse) : List (Bytes × Bytes) :=
  if r.closeConnection then [(ascii "Connection", ascii "close")]
  else [(ascii "Content-Length", decimal r.body.length), (ascii "Connection", ascii "Keep-Alive")]

def message (r : HttpResponse) : Message where
  statusCode := r.statusCode.number
  statusMessage := r.statusMessage
  headers := r.headers.insertAll r.generated
  body := r.body

/-- Nothing in the head looks like the end of a line, and the headers are neither those
that are generated nor cut by a colon. -/
structure Framed (r : HttpResponse) : Prop where
  size : r.closeConnection = false → r.body.length < 10 ^ 13
  status : NoPair 13 10 r.statusMessage
  keys : ∀ header ∈ r.headers.entries, NoPair 13 10 header.1 ∧ 58 ∉ header.1
  values : ∀ header ∈ r.headers.entries, NoPair 13 10 header.2
  own : ∀ header ∈ r.headers.entries,
    header.1 ≠ ascii "Content-Length" ∧ header.1 ≠ ascii "Connection"

/-- Only the last response may close the connection. -/
structure Sequenced (rs : List HttpResponse) : Prop where
  framed : ∀ r ∈ rs, Framed r
  kept : ∀ r ∈ rs.dropLast, r.closeConnection = false

def render (r : HttpResponse) : Bytes := r.pieces.flatten

def fieldLine (field : Bytes × Bytes) : Bytes := field.1 ++ ascii ": " ++ field.2

theorem fieldLine_eq (field : Bytes × Bytes) :
    fieldLine field = field.1 ++ 58 :: 32 :: field.2 := by
  rw [fieldLine, List.append_assoc]
  rfl

theorem readField_fieldLine (field : Bytes × Bytes) (noColon : 58 ∉ field.1) :
    Message.readField (fieldLine field) = some field := by
  rw [fieldLine_eq, Message.readField, Reader.upTo_append _ _ _ noColon, Option.bind_some]
  rfl

theorem mapM_readField (fields : List (Bytes × Bytes)) (noColon : ∀ field ∈ fields, 58 ∉ field.1) :
    (fields.map fieldLine).mapM Message.readField = some fields := by
  induction fields with
  | nil => rfl
  | cons first rest ih =>
      obtain ⟨here, later⟩ := List.forall_mem_cons.mp noColon
      rw [List.map_cons, List.mapM_cons, readField_fieldLine first here, ih later]
      rfl

def fields (r : HttpResponse) : List (Bytes × Bytes) := r.generated ++ r.headers.entries

theorem decimal_noPair (n : Nat) : NoPair 13 10 (decimal n) := by
  apply NoPair.of_notMem
  intro member
  have range := decimal_digit n 13 member
  revert range
  decide

theorem generated_cases (r : HttpResponse) (field : Bytes × Bytes) (made : field ∈ r.generated) :
    field = (ascii "Connection", ascii "close") ∨
      field = (ascii "Content-Length", decimal r.body.length) ∨
      field = (ascii "Connection", ascii "Keep-Alive") := by
  unfold generated at made
  split at made
  · exact Or.inl (List.mem_singleton.mp made)
  · rcases List.mem_cons.mp made with length | connection
    · exact Or.inr (Or.inl length)
    · exact Or.inr (Or.inr (List.mem_singleton.mp connection))

/-- Every field that is written, generated or not, can be told apart again. -/
theorem Framed.fields {r : HttpResponse} (framed : Framed r) (field : Bytes × Bytes)
    (member : field ∈ r.fields) :
    NoPair 13 10 field.1 ∧ 58 ∉ field.1 ∧ NoPair 13 10 field.2 := by
  have connection : NoPair 13 10 (ascii "Connection") ∧ 58 ∉ ascii "Connection" :=
    ⟨NoPair.of_notMem (by decide), by decide⟩
  have length : NoPair 13 10 (ascii "Content-Length") ∧ 58 ∉ ascii "Content-Length" :=
    ⟨NoPair.of_notMem (by decide), by decide⟩
  rcases List.mem_append.mp member with made | given
  · rcases generated_cases r field made with rfl | rfl | rfl
    · exact ⟨connection.1, connection.2, NoPair.of_notMem (by decide)⟩
    · exact ⟨length.1, length.2, decimal_noPair _⟩
    · exact ⟨connection.1, connection.2, NoPair.of_notMem (by decide)⟩
  · exact ⟨(framed.keys field given).1, (framed.keys field given).2, framed.values field given⟩

theorem Framed.fieldLines {r : HttpResponse} (framed : Framed r) (line : Bytes)
    (member : line ∈ r.fields.map fieldLine) : line ≠ [] ∧ NoPair 13 10 line := by
  obtain ⟨field, listed, rfl⟩ := List.mem_map.mp member
  obtain ⟨key, _, value⟩ := framed.fields field listed
  rw [fieldLine_eq]
  refine ⟨by simp, ?_⟩
  apply key.join 58 (by decide) (by decide)
  exact NoPair.prepend [32] (by decide) value

theorem Framed.absent {r : HttpResponse} (framed : Framed r) (key : Bytes)
    (named : key = ascii "Content-Length" ∨ key = ascii "Connection") :
    r.headers.find key = none := by
  cases found : r.headers.find key with
  | none => rfl
  | some value =>
      have own := framed.own _ ((OrderedMap.find_eq_some_iff _ _ _).mp found)
      exact absurd named (not_or.mpr own)

/-- The received headers are those of the response and the generated ones. -/
theorem Framed.received {r : HttpResponse} (framed : Framed r) :
    OrderedMap.empty.insertAll r.fields = r.message.headers := by
  apply OrderedMap.insertAll_entries
  intro field made
  apply framed.absent
  rcases generated_cases r field made with rfl | rfl | rfl
  · exact Or.inr rfl
  · exact Or.inl rfl
  · exact Or.inr rfl

/-- The bytes of a response, line by line. -/
def statusLine (r : HttpResponse) : Bytes :=
  ascii "HTTP/1.1" ++ 32 :: (decimal r.statusCode.number ++ 32 :: r.statusMessage)

theorem headers_flatten (entries : List (Bytes × Bytes)) :
    (entries.flatMap fun (key, value) => [key, ascii ": ", value, ascii "\r\n"]).flatten =
      unlines 13 10 (entries.map fieldLine) := by
  induction entries with
  | nil => rfl
  | cons first rest ih =>
      rw [List.flatMap_cons, List.flatten_append, ih, List.map_cons, unlines_cons, fieldLine]
      simp only [List.flatten_cons, List.flatten_nil, List.append_nil, List.append_assoc]
      rfl

/-- The lines of the generated fields pass the array of 32 bytes whole. -/
theorem generated_flatten (r : HttpResponse) (framed : Framed r) :
    List.flatten (if r.closeConnection then [ascii "Connection: close\r\n"]
      else [snprintf 32 (ascii "Content-Length: " ++ decimal r.body.length ++ ascii "\r\n"),
        ascii "Connection: Keep-Alive\r\n"]) = unlines 13 10 (r.generated.map fieldLine) := by
  unfold generated
  split
  · decide
  · rename_i kept
    have small := framed.size (by simpa using kept)
    have digits := decimal_length_le r.body.length 13 (by decide) small
    have fits :
        (ascii "Content-Length: " ++ decimal r.body.length ++ ascii "\r\n").length < 32 := by
      simp only [List.length_append, show (ascii "Content-Length: ").length = 16 by decide,
        show (ascii "\r\n").length = 2 by decide]
      omega
    have name : ascii "Content-Length: " = ascii "Content-Length" ++ ascii ": " := by decide
    have kept : ascii "Connection: Keep-Alive\r\n" =
        fieldLine (ascii "Connection", ascii "Keep-Alive") ++ ascii "\r\n" := by decide
    rw [snprintf_of_fits _ _ fits, name, kept]
    rfl

theorem render_eq (r : HttpResponse) (framed : Framed r) :
    r.render = r.statusLine ++ 13 :: 10 ::
      (unlines 13 10 (r.fields.map fieldLine) ++ 13 :: 10 :: r.body) := by
  have status : snprintf 32 (ascii "HTTP/1.1 " ++ decimal r.statusCode.number ++ ascii " ") =
      ascii "HTTP/1.1" ++ 32 :: (decimal r.statusCode.number ++ [32]) := by
    cases r.statusCode <;> decide
  rw [render, pieces, List.flatten_append, List.flatten_append, List.flatten_append,
    generated_flatten r framed, headers_flatten, status, fields, List.map_append, unlines_append]
  simp only [statusLine, List.flatten_cons, List.flatten_nil, List.append_nil, List.append_assoc,
    List.cons_append, List.nil_append, show ascii "\r\n" = [13, 10] by decide]

/-- The announced length is that of the body, and without one the body is the last. -/
theorem readBody_message (r : HttpResponse) (framed : Framed r) (rest : Bytes)
    (last : r.closeConnection = true → rest = []) :
    Message.readBody r.message.headers (r.body ++ rest) = some (r.body, rest) := by
  have other : ascii "Connection" ≠ ascii "Content-Length" := by decide
  unfold Message.readBody
  cases closing : r.closeConnection with
  | true =>
      have none : r.message.headers.find (ascii "Content-Length") = none := by
        have made : r.message.headers =
            r.headers.insert (ascii "Connection") (ascii "close") := by
          rw [message, generated, closing]
          rfl
        rw [made, OrderedMap.find_insert_of_ne _ _ other]
        exact framed.absent _ (Or.inl rfl)
      rw [none, last closing, List.append_nil]
  | false =>
      have announced : r.message.headers.find (ascii "Content-Length") =
          some (decimal r.body.length) := by
        have made : r.message.headers =
            (r.headers.insert (ascii "Content-Length") (decimal r.body.length)).insert
              (ascii "Connection") (ascii "Keep-Alive") := by
          rw [message, generated, closing]
          rfl
        rw [made, OrderedMap.find_insert_of_ne _ _ other, OrderedMap.find_insert_self]
      rw [announced]
      dsimp only
      rw [Message.readNumber_decimal, Option.bind_some, if_pos (by simp), List.take_left,
        List.drop_left]

theorem read_render (r : HttpResponse) (framed : Framed r) (rest : Bytes)
    (last : r.closeConnection = true → rest = []) :
    Message.read (r.render ++ rest) = some (r.message, rest) := by
  have single : NoPair 13 10 r.statusLine := by
    apply (NoPair.of_notMem (by decide)).join 32 (by decide) (by decide)
    exact (decimal_noPair _).join 32 (by decide) (by decide) framed.status
  have shape : r.render ++ rest = r.statusLine ++ 13 :: 10 ::
      (unlines 13 10 (r.fields.map fieldLine) ++ 13 :: 10 :: (r.body ++ rest)) := by
    rw [render_eq r framed]
    simp only [List.append_assoc, List.cons_append]
  have enough : (r.fields.map fieldLine).length <
      (unlines 13 10 (r.fields.map fieldLine) ++ 13 :: 10 :: (r.body ++ rest)).length := by
    have count : (r.fields.map fieldLine).length ≤
        (unlines 13 10 (r.fields.map fieldLine)).length := by
      apply Reader.length_le_flatMap
      intro line _
      simp
    rw [List.length_append, List.length_cons]
    omega
  have noColon : ∀ field ∈ r.fields, 58 ∉ field.1 := by
    intro field member
    exact (framed.fields field member).2.1
  rw [Message.read, shape, Reader.line_append (by decide) _ _ single, Option.bind_some]
  dsimp only
  rw [statusLine, Message.readStatusLine_render, Option.bind_some]
  dsimp only
  rw [Reader.block_unlines (by decide) _ _ _ enough framed.fieldLines, Option.bind_some]
  dsimp only
  rw [mapM_readField r.fields noColon, Option.bind_some, framed.received,
    readBody_message r framed rest last, Option.map_some]
  rfl

theorem number_injective (c d : HttpStatusCode) (same : c.number = d.number) : c = d := by
  revert same
  cases c <;> cases d <;> decide

theorem find_message (r : HttpResponse) (key : Bytes) (notLength : key ≠ ascii "Content-Length")
    (notConnection : key ≠ ascii "Connection") :
    r.message.headers.find key = r.headers.find key := by
  have others : ∀ field ∈ r.generated, field.1 ≠ key := by
    intro field made
    rcases generated_cases r field made with rfl | rfl | rfl
    · exact notConnection.symm
    · exact notLength.symm
    · exact notConnection.symm
  rw [message, OrderedMap.find_insertAll, OrderedMap.find_insertAll_of_absent _ _ others]
  rfl

theorem find_connection (r : HttpResponse) :
    r.message.headers.find (ascii "Connection") =
      some (if r.closeConnection then ascii "close" else ascii "Keep-Alive") := by
  rw [message, generated]
  split
  · exact OrderedMap.find_insert_self _ _ _
  · exact OrderedMap.find_insert_self _ _ _

/-- Nothing of a response is lost on the way. -/
theorem message_injective (r p : HttpResponse) (framed : Framed r) (framed' : Framed p)
    (same : r.message = p.message) : r = p := by
  have code := number_injective _ _ (congrArg Message.statusCode same)
  have text : r.statusMessage = p.statusMessage := congrArg Message.statusMessage same
  have body : r.body = p.body := congrArg Message.body same
  have headers : r.headers = p.headers := by
    apply OrderedMap.ext_find
    intro key
    by_cases named : key = ascii "Content-Length" ∨ key = ascii "Connection"
    · rw [framed.absent key named, framed'.absent key named]
    · obtain ⟨notLength, notConnection⟩ := not_or.mp named
      rw [← find_message r key notLength notConnection, same,
        find_message p key notLength notConnection]
  have closing : r.closeConnection = p.closeConnection := by
    have field := find_connection r
    rw [same, find_connection p, Option.some.injEq] at field
    revert field
    cases r.closeConnection <;> cases p.closeConnection <;> decide
  cases r
  cases p
  simp only at code text body headers closing
  rw [code, text, body, headers, closing]

theorem messages_injective (rs ps : List HttpResponse) (framed : ∀ r ∈ rs, Framed r)
    (framed' : ∀ p ∈ ps, Framed p) (same : rs.map message = ps.map message) : rs = ps := by
  induction rs generalizing ps with
  | nil => exact (List.map_eq_nil_iff.mp same.symm).symm
  | cons r rest ih =>
      cases ps with
      | nil => cases same
      | cons p others =>
          rw [List.map_cons, List.map_cons, List.cons.injEq] at same
          obtain ⟨here, later⟩ := List.forall_mem_cons.mp framed
          obtain ⟨here', later'⟩ := List.forall_mem_cons.mp framed'
          rw [message_injective r p here here' same.1, ih others later later' same.2]

theorem appendToBuffer_render (rs : List HttpResponse) (output : Buffer) :
    ∃ b, rs.foldlM (fun out r => r.appendToBuffer out) output = some b ∧
      b.content = output.content ++ rs.flatMap render := by
  induction rs generalizing output with
  | nil => exact ⟨output, rfl, by simp⟩
  | cons r rest ih =>
      obtain ⟨c, appended, content⟩ := Buffer.append_pieces r.pieces output
      obtain ⟨b, later, whole⟩ := ih c
      refine ⟨b, ?_, ?_⟩
      · rw [List.foldlM_cons, appendToBuffer, appended]
        exact later
      · rw [whole, content, List.flatMap_cons, List.append_assoc]
        rfl

theorem render_ne_nil (r : HttpResponse) (framed : Framed r) : r.render ≠ [] := by
  rw [render_eq r framed]
  simp

/-- In a sequence, what follows a response that closes is nothing. -/
theorem Sequenced.last {rs : List HttpResponse} (sequenced : Sequenced rs)
    (front : List HttpResponse) (r : HttpResponse) (back : List HttpResponse)
    (split : rs = front ++ r :: back) (closing : r.closeConnection = true) : back = [] := by
  cases back with
  | nil => rfl
  | cons next more =>
      have inner : r ∈ rs.dropLast := by
        rw [split, List.dropLast_append_of_ne_nil (by simp), List.dropLast_cons_of_ne_nil (by simp)]
        exact List.mem_append_right _ List.mem_cons_self
      rw [sequenced.kept r inner] at closing
      cases closing

theorem readAll_render (rs : List HttpResponse) (sequenced : Sequenced rs) :
    Message.readAll (rs.flatMap render) = some (rs.map message) := by
  have visible : ∀ r ∈ rs, r.render ≠ [] := by
    intro r member
    exact render_ne_nil r (sequenced.framed r member)
  apply Reader.many_flatMap _ _ _ _ _ (Reader.length_le_flatMap _ _ visible) visible
  intro front r back split
  have member : r ∈ rs := by
    rw [split]
    exact List.mem_append_right _ List.mem_cons_self
  apply read_render r (sequenced.framed r member)
  intro closing
  rw [sequenced.last front r back split closing]
  rfl

/-- Responses appended to a buffer one behind the other, only the last of which may
close the connection: the bytes read back as these responses with nothing left over, and
no other responses have the same bytes. -/
theorem responses_read_back (rs : List HttpResponse) (sequenced : Sequenced rs) (output : Buffer) :
    ∃ b stream, rs.foldlM (fun out r => r.appendToBuffer out) output = some b ∧
      b.content = output.content ++ stream ∧
      Message.readAll stream = some (rs.map message) ∧
      ∀ others, Sequenced others → others.flatMap render = stream → others = rs := by
  obtain ⟨b, appended, content⟩ := appendToBuffer_render rs output
  have decoded := readAll_render rs sequenced
  refine ⟨b, rs.flatMap render, appended, content, decoded, ?_⟩
  intro others sequenced' same
  have again := readAll_render others sequenced'
  rw [same, decoded, Option.some.injEq] at again
  exact messages_injective others rs sequenced'.framed sequenced.framed again.symm

/-- A page whose body looks like another response. -/
def page : HttpResponse :=
  { HttpResponse.create false with
    statusCode := .k200OK
    statusMessage := ascii "OK"
    headers := OrderedMap.empty.insert (ascii "Server") (ascii "tundra")
    body := ascii "\r\n\r\nHTTP/1.1 404 Not Found\r\n" }

def farewell : HttpResponse :=
  { HttpResponse.create true with statusCode := .k404NotFound, statusMessage := ascii "Not Found" }

theorem page_framed : Framed page := by
  have single : ∀ header ∈ page.headers.entries, header = (ascii "Server", ascii "tundra") := by
    decide
  refine ⟨by decide, NoPair.of_notMem (by decide), ?_, ?_, ?_⟩
  · intro header member
    rw [single header member]
    exact ⟨NoPair.of_notMem (by decide), by decide⟩
  · intro header member
    rw [single header member]
    exact NoPair.of_notMem (by decide)
  · intro header member
    rw [single header member]
    decide

theorem farewell_framed : Framed farewell := by
  have none : farewell.headers.entries = [] := rfl
  refine ⟨by decide, NoPair.of_notMem (by decide), ?_, ?_, ?_⟩
  · simp [none]
  · simp [none]
  · simp [none]

theorem pages_sequenced : Sequenced [page, page, farewell] := by
  refine ⟨?_, by decide⟩
  intro r member
  simp only [List.mem_cons, List.not_mem_nil, or_false] at member
  rcases member with rfl | rfl | rfl
  · exact page_framed
  · exact page_framed
  · exact farewell_framed

theorem responses_read_back_pages :
    ∃ b stream, [page, page, farewell].foldlM (fun out r => r.appendToBuffer out) Buffer.fresh =
        some b ∧ b.content = Buffer.fresh.content ++ stream ∧
      Message.readAll stream = some ([page, page, farewell].map message) := by
  obtain ⟨b, stream, appended, content, decoded, _⟩ :=
    responses_read_back [page, page, farewell] pages_sequenced Buffer.fresh
  exact ⟨b, stream, appended, content, decoded⟩

end HttpResponse
end Tundra
