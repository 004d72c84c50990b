import Mathlib.Data.List.Basic
import Tundra.Library.OrderedMap
import Tundra.Util.BufferQueue
import Tundra.Util.Text

set_option autoImplicit false

/- http/HttpResponse and its rendering. -/
namespace Tundra

open Library

inductive HttpStatusCode
  | kUnknown
  | k200OK
  | k301MovePermanently
  | k400BadRequest
  | k404NotFound
deriving DecidableEq, Repr

def HttpStatusCode.number : HttpStatusCode → Nat
  | .kUnknown => 0
  | .k200OK => 200
  | .k301MovePermanently => 301
  | .k400BadRequest => 400
  | .k404NotFound => 404

structure HttpResponse where
  headers : OrderedMap Bytes Bytes
  statusCode : HttpStatusCode
  statusMessage : Bytes
  closeConnection : Bool
  body : Bytes
deriving DecidableEq

namespace HttpResponse

def create (close : Bool) : HttpResponse where
  headers := OrderedMap.empty
  statusCode := .kUnknown
  statusMessage := []
  closeConnection := close
  body := []

/-- The pieces appendToBuffer appends, in its order. Both formatted pieces pass
through an array of 32 bytes. -/
def pieces (r : HttpResponse) : List Bytes :=
  [snprintf 32 (ascii "HTTP/1.1 " ++ decimal r.statusCode.number ++ ascii " "), r.statusMessage,
    ascii "\r\n"] ++
  (if r.closeConnection then [ascii "Connection: close\r\n"]
    else [snprintf 32 (ascii "Content-Length: " ++ decimal r.body.length ++ ascii "\r\n"),
      ascii "Connection: Keep-Alive\r\n"]) ++
  (r.headers.entries.flatMap fun (key, value) => [key, ascii ": ", value, ascii "\r\n"]) ++
  [ascii "\r\n", r.body]

def appendToBuffer (r : HttpResponse) (output : Buffer) : Option Buffer :=
  r.pieces.foldlM Buffer.append output

end HttpResponse

/-- Appending pieces one after the other never fails and appends them all. -/
theorem Buffer.append_pieces (pieces : List Bytes) (b : Buffer) :
    ∃ r, pieces.foldlM Buffer.append b = some r ∧ r.content = b.content ++ pieces.flatten := by
  induction pieces generalizing b with
  | nil => exact ⟨b, rfl, by simp⟩
  | cons piece rest ih =>
      obtain ⟨c, appended, content⟩ := Buffer.append_content b piece
      obtain ⟨r, later, whole⟩ := ih c
      refine ⟨r, ?_, ?_⟩
      · rw [List.foldlM_cons, appended]
        exact later
      · rw [whole, content, List.flatten_cons, List.append_assoc]

end Tundra
