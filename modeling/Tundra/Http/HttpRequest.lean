import Mathlib.Data.List.DropRight
import Tundra.Library.OrderedMap
import Tundra.Util.TimeStamp

set_option autoImplicit false

/- http/HttpRequest. The parser hands over pairs of pointers; here they are the
bytes between them. -/
namespace Tundra

open Library

inductive Method
  | kInvalid
  | kGet
  | kPost
  | kHead
  | kPut
  | kDelete
deriving DecidableEq, Repr

inductive Version
  | kUnknown
  | kHttp10
  | kHttp11
deriving DecidableEq, Repr

abbrev Headers := OrderedMap Bytes Bytes

structure HttpRequest where
  method : Method
  version : Version
  path : Bytes
  query : Bytes
  receiveTime : TimeStamp
  headers : Headers
deriving DecidableEq

/-- The method a name stands for. -/
def Method.ofBytes (m : Bytes) : Method :=
  if m = ascii "GET" then .kGet
  else if m = ascii "POST" then .kPost
  else if m = ascii "HEAD" then .kHead
  else if m = ascii "PUT" then .kPut
  else if m = ascii "DELETE" then .kDelete
  else .kInvalid

/-- methodString, for the method of a request. -/
def Method.methodString : Method → Bytes
  | .kInvalid => ascii "UNKNOWN"
  | .kGet => ascii "GET"
  | .kPost => ascii "POST"
  | .kHead => ascii "HEAD"
  | .kPut => ascii "PUT"
  | .kDelete => ascii "DELETE"

/-- std::find, as a distance from the start; the length when there is none. -/
def findByte (bytes : Bytes) (b : UInt8) : Nat := bytes.idxOf b

/-- The field and the value of a header line: the bytes before the colon, and
those after it without the white space around them. -/
def headerField (line : Bytes) (colon : Nat) : Bytes := line.take colon
def headerValue (line : Bytes) (colon : Nat) : Bytes :=
  ((line.drop (colon + 1)).dropWhile isspace).rdropWhile isspace

namespace HttpRequest

def create : HttpRequest where
  method := .kInvalid
  version := .kUnknown
  path := []
  query := []
  receiveTime := 0
  headers := OrderedMap.empty

def setVersion (r : HttpRequest) (v : Version) : HttpRequest := { r with version := v }
def setPath (r : HttpRequest) (path : Bytes) : HttpRequest := { r with path := path }
def setQuery (r : HttpRequest) (query : Bytes) : HttpRequest := { r with query := query }
def setReceiveTime (r : HttpRequest) (time : TimeStamp) : HttpRequest :=
  { r with receiveTime := time }

/-- The assertion is that no method has been set before. -/
def setMethod (r : HttpRequest) (m : Bytes) : Option (HttpRequest × Bool) :=
  if r.method = .kInvalid then
    some ({ r with method := Method.ofBytes m }, Method.ofBytes m ≠ .kInvalid)
  else none

def addHeader (r : HttpRequest) (line : Bytes) (colon : Nat) : HttpRequest :=
  { r with headers := r.headers.insert (headerField line colon) (headerValue line colon) }

def getHeader (r : HttpRequest) (field : Bytes) : Bytes := (r.headers.find field).getD []

end HttpRequest
end Tundra
