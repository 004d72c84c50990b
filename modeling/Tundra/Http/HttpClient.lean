import Tundra.Http.ResponseFraming

set_option autoImplicit false

/- A client of the server: it takes responses off the front of what has arrived, and does not
take one that is still on its way. -/
namespace Tundra

open Library

namespace Message

/-- The message announces how long its body is. -/
def sized (m : Message) : Bool := (m.headers.find (ascii "Content-Length")).isSome

/-- A body without an announced length reaches to the end of the stream, so that the end has
to be seen first. -/
def readNext (ended : Bool) : Reader UInt8 Message := fun text =>
  (read text).filter fun (m, _) => m.sized || ended

theorem readBody_more (headers : OrderedMap Bytes Bytes)
    (sized : (headers.find (ascii "Content-Length")).isSome = true) (text body rest more : Bytes)
    (done : readBody headers text = some (body, rest)) :
    readBody headers (text ++ more) = some (body, rest ++ more) := by
  unfold readBody at done ⊢
  cases found : headers.find (ascii "Content-Length") with
  | none =>
      rw [found] at sized
      cases sized
  | some digits =>
      rw [found] at done
      dsimp only at done ⊢
      obtain ⟨length, number, taken⟩ := Option.bind_eq_some_iff.mp done
      rw [number, Option.bind_some]
      split at taken
      · rename_i enough
        cases taken
        rw [if_pos (by rw [List.length_append]; omega), List.take_append_of_le_length enough,
          List.drop_append_of_le_length enough]
      · cases taken

/-- A response that is there is not changed by what follows. -/
theorem read_more (text rest more : Bytes) (m : Message) (sized : m.sized = true)
    (done : read text = some (m, rest)) : read (text ++ more) = some (m, rest ++ more) := by
  have distinct : (13 : UInt8) ≠ 10 := by decide
  unfold read at done ⊢
  obtain ⟨⟨line, behind⟩, first, later⟩ := Option.bind_eq_some_iff.mp done
  obtain ⟨status, known, later⟩ := Option.bind_eq_some_iff.mp later
  obtain ⟨⟨lines, body⟩, block, later⟩ := Option.bind_eq_some_iff.mp later
  obtain ⟨fields, parsed, later⟩ := Option.bind_eq_some_iff.mp later
  obtain ⟨⟨content, left⟩, taken, same⟩ := Option.map_eq_some_iff.mp later
  cases same
  have longer := Reader.block_more distinct behind.length more.length behind body more lines block
  rw [Reader.line_more distinct text line behind more first, Option.bind_some]
  dsimp only
  rw [known, Option.bind_some, List.length_append, longer, Option.bind_some]
  dsimp only
  rw [parsed, Option.bind_some, readBody_more _ sized body content rest more taken, Option.map_some]

end Message

namespace HttpResponse

/-- Of a response that is arriving, the client takes nothing before it has all of it. -/
theorem readNext_eq (r : HttpResponse) (framed : Framed r) (ended : Bool) (text more : Bytes)
    (part : text ++ more = r.render) (whole : ended = true → more = []) (m : Message)
    (rest : Bytes) : Message.readNext ended text = some (m, rest) ↔
      (more = [] ∧ (r.message.sized = true ∨ ended = true)) ∧ m = r.message ∧ rest = [] := by
  have complete := read_render r framed [] (fun _ => rfl)
  rw [List.append_nil] at complete
  rw [Message.readNext, Option.filter_eq_some_iff, Bool.or_eq_true]
  constructor
  · rintro ⟨done, sized | ended⟩
    · have longer := Message.read_more text rest more m sized done
      rw [part, complete, Option.some.injEq, Prod.mk.injEq] at longer
      obtain ⟨rfl, nothing⟩ := longer
      obtain ⟨rfl, rfl⟩ := List.append_eq_nil_iff.mp nothing.symm
      exact ⟨⟨rfl, Or.inl sized⟩, rfl, rfl⟩
    · obtain rfl := whole ended
      rw [List.append_nil] at part
      rw [part, complete, Option.some.injEq, Prod.mk.injEq] at done
      exact ⟨⟨rfl, Or.inr ended⟩, done.1.symm, done.2.symm⟩
  · rintro ⟨⟨rfl, known⟩, rfl, rfl⟩
    rw [List.append_nil] at part
    rw [part]
    exact ⟨complete, known⟩

/-- The message of a response announces its length unless it closes the connection. -/
theorem sized_iff (r : HttpResponse) (framed : Framed r) :
    r.message.sized = true ↔ r.closeConnection = false := by
  have other : ascii "Connection" ≠ ascii "Content-Length" := by decide
  rw [Message.sized, message, generated]
  cases r.closeConnection with
  | true =>
      have absent : (r.headers.insert (ascii "Connection") (ascii "close")).find
          (ascii "Content-Length") = none := by
        rw [OrderedMap.find_insert_of_ne _ _ other]
        exact framed.absent _ (Or.inl rfl)
      simp only [↓reduceIte, OrderedMap.insertAll, List.foldl_cons, List.foldl_nil, absent]
      decide
  | false =>
      have present : ((r.headers.insert (ascii "Content-Length") (decimal r.body.length)).insert
          (ascii "Connection") (ascii "Keep-Alive")).find (ascii "Content-Length") =
            some (decimal r.body.length) := by
        rw [OrderedMap.find_insert_of_ne _ _ other]
        exact OrderedMap.find_insert_self _ _ _
      simp [OrderedMap.insertAll, present]

end HttpResponse
end Tundra
