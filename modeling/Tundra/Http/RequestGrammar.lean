import Mathlib.Data.List.Basic
import Tundra.Http.HttpLines

set_option autoImplicit false

/- The request lines that processRequestLine accepts, as a grammar. -/
namespace Tundra

open Library

/-- The last character of the protocol name. -/
def Version.digit : Version → UInt8
  | .kHttp11 => 49
  | .kHttp10 | .kUnknown => 48

/-- A request line of the grammar: a method, a target without a space, perhaps an empty one,
and one of the two versions. -/
structure RequestLine where
  method : Method
  target : Bytes
  version : Version
  known : method ≠ .kInvalid
  plain : 32 ∉ target
  supported : version ≠ .kUnknown

namespace RequestLine

def protocol (l : RequestLine) : Bytes := ascii "HTTP/1." ++ [l.version.digit]

def text (l : RequestLine) : Bytes :=
  l.method.methodString ++ 32 :: (l.target ++ 32 :: l.protocol)

/-- What the line makes of a fresh request. -/
def request (l : RequestLine) : HttpRequest :=
  { HttpRequest.create with
    method := l.method
    version := l.version
    path := l.target.take (findByte l.target 63)
    query := l.target.drop (findByte l.target 63) }

end RequestLine

namespace HttpContext

theorem findByte_append (b : UInt8) (front back : Bytes) (absent : b ∉ front) :
    findByte (front ++ b :: back) b = front.length := by
  rw [findByte, List.idxOf_append_of_notMem absent, List.idxOf_cons_self, Nat.add_zero]

theorem findByte_ne_length (b : UInt8) (text : Bytes) :
    findByte text b ≠ text.length ↔ b ∈ text := by
  rw [findByte, ← List.idxOf_lt_length_iff]
  have := List.idxOf_le_length (a := b) (l := text)
  omega

theorem ofBytes_eq_iff (word : Bytes) (m : Method) (known : m ≠ .kInvalid) :
    Method.ofBytes word = m ↔ word = m.methodString := by
  constructor
  · intro named
    unfold Method.ofBytes at named
    split_ifs at named <;> subst named <;> first | assumption | exact absurd rfl known
  · intro same
    rw [same]
    cases m <;> rfl

theorem methodString_no_space (m : Method) : 32 ∉ m.methodString := by
  cases m <;> decide

theorem setProtocol_accepts (r : HttpRequest) (v : Version) (supported : v ≠ .kUnknown) :
    setProtocol r (ascii "HTTP/1." ++ [v.digit]) = (r.setVersion v, true) := by
  cases v with
  | kUnknown => exact absurd rfl supported
  | kHttp10 => rfl
  | kHttp11 => rfl

theorem setProtocol_accepted (r : HttpRequest) (protocol : Bytes)
    (accepted : (setProtocol r protocol).2 = true) :
    ∃ v : Version, v ≠ .kUnknown ∧ protocol = ascii "HTTP/1." ++ [v.digit] := by
  unfold setProtocol at accepted
  split at accepted
  · rename_i shape
    have split (d : UInt8) (last : protocol[7]? = some d) : protocol = ascii "HTTP/1." ++ [d] := by
      obtain ⟨below, at_⟩ := List.getElem?_eq_some_iff.mp last
      have whole := List.take_append_drop 7 protocol
      rw [shape.2, List.drop_eq_getElem_cons below, at_,
        List.drop_eq_nil_of_le (Nat.le_of_eq shape.1)] at whole
      exact whole.symm
    split at accepted
    · rename_i one
      exact ⟨.kHttp11, by decide, split 49 one⟩
    · split at accepted
      · rename_i zero
        exact ⟨.kHttp10, by decide, split 48 zero⟩
      · cases accepted
  · cases accepted

/-- The target is cut in two without a loss, in front of its first question mark. -/
theorem setTarget_fresh (r : HttpRequest) (fresh : r.query = []) (target : Bytes) :
    setTarget r target = { r with
      path := target.take (findByte target 63)
      query := target.drop (findByte target 63) } := by
  unfold setTarget
  dsimp only
  split
  · rfl
  · rename_i absent
    have all : findByte target 63 = target.length := not_not.mp absent
    rw [all, List.take_length, List.drop_length, ← fresh]
    rfl

/-- A line with a space, up to its first word. -/
theorem processRequestLine_word (c : HttpContext) (word rest : Bytes) (plain : 32 ∉ word) :
    c.processRequestLine (word ++ 32 :: rest) =
      (c.request.setMethod word).map fun (request, known) =>
        if known then
          if findByte rest 32 ≠ rest.length then
            let r := setProtocol (setTarget request (rest.take (findByte rest 32)))
              (rest.drop (findByte rest 32 + 1))
            ({ c with request := r.1 }, r.2)
          else ({ c with request := request }, false)
        else ({ c with request := request }, false) := by
  have first := findByte_append 32 word rest plain
  have more : word.length ≠ (word ++ 32 :: rest).length := by simp
  have behind : (word ++ 32 :: rest).drop (word.length + 1) = rest := by simp
  simp only [processRequestLine, first, List.take_left, behind, ne_eq, more, not_false_eq_true,
    ↓reduceIte]

theorem processRequestLine_text (c : HttpContext) (fresh : c.request = HttpRequest.create)
    (l : RequestLine) :
    c.processRequestLine l.text = some ({ c with request := l.request }, true) := by
  have named : Method.ofBytes l.method.methodString = l.method :=
    (ofBytes_eq_iff _ _ l.known).mpr rfl
  have second := findByte_append 32 l.target l.protocol l.plain
  have more : l.target.length ≠ (l.target ++ 32 :: l.protocol).length := by simp
  have behind : (l.target ++ 32 :: l.protocol).drop (l.target.length + 1) = l.protocol := by simp
  rw [RequestLine.text, processRequestLine_word _ _ _ (methodString_no_space l.method), fresh]
  simp only [HttpRequest.setMethod, HttpRequest.create, ↓reduceIte, named, Option.map_some,
    l.known, ne_eq, not_false_eq_true, decide_true, second, more, List.take_left, behind]
  rw [setTarget_fresh _ rfl, RequestLine.protocol, setProtocol_accepts _ _ l.supported]
  rfl

theorem processRequestLine_accepted (c d : HttpContext) (line : Bytes)
    (accepted : c.processRequestLine line = some (d, true)) :
    ∃ l : RequestLine, l.text = line := by
  by_cases space : 32 ∈ line
  · obtain ⟨word, rest, rfl, first⟩ := List.eq_append_cons_of_mem space
    rw [processRequestLine_word c word rest first] at accepted
    obtain ⟨⟨request, known⟩, set_, taken⟩ := Option.map_eq_some_iff.mp accepted
    have valid : known = true → Method.ofBytes word ≠ .kInvalid := by
      intro yes
      unfold HttpRequest.setMethod at set_
      split at set_
      · cases set_
        exact of_decide_eq_true yes
      · cases set_
    dsimp only at taken
    split at taken
    · rename_i yes
      split at taken
      · rename_i again
        obtain ⟨target, protocol, rfl, second⟩ :=
          List.eq_append_cons_of_mem ((findByte_ne_length 32 rest).mp again)
        rw [findByte_append 32 target protocol second] at taken
        have behind : (target ++ 32 :: protocol).drop (target.length + 1) = protocol := by simp
        rw [List.take_left, behind] at taken
        obtain ⟨v, supported, rfl⟩ := setProtocol_accepted _ _ (Prod.mk.inj taken).2
        refine ⟨⟨Method.ofBytes word, target, v, valid yes, second, supported⟩, ?_⟩
        rw [RequestLine.text, ← (ofBytes_eq_iff word _ (valid yes)).mp rfl]
        rfl
      · cases taken
    · cases taken
  · have none : findByte line 32 = line.length :=
      not_not.mp fun here => space ((findByte_ne_length 32 line).mp here)
    simp only [processRequestLine, none, ne_eq, not_true_eq_false, ↓reduceIte] at accepted
    cases accepted

/-- The pieces can be read off the request, so a line has one decomposition only. -/
theorem text_injective (l m : RequestLine) (same : l.text = m.text) : l = m := by
  have left := processRequestLine_text create rfl l
  have right := processRequestLine_text create rfl m
  rw [same, right] at left
  have requests : m.request = l.request :=
    congrArg HttpContext.request (Prod.mk.inj (Option.some.inj left)).1
  have target (k : RequestLine) : k.request.path ++ k.request.query = k.target :=
    List.take_append_drop ..
  have method : l.method = m.method := congrArg HttpRequest.method requests.symm
  have version : l.version = m.version := congrArg HttpRequest.version requests.symm
  have targets : l.target = m.target := by rw [← target l, ← target m, requests]
  obtain ⟨_, _, _, _, _, _⟩ := l
  cases method
  cases version
  cases targets
  rfl

theorem notMem_take_findByte (b : UInt8) (text : Bytes) : b ∉ text.take (findByte text b) := by
  by_cases member : b ∈ text
  · obtain ⟨front, back, rfl, absent⟩ := List.eq_append_cons_of_mem member
    rwa [findByte_append b front back absent, List.take_left]
  · exact fun inside => member (List.mem_of_mem_take inside)

theorem head_drop_findByte (b : UInt8) (text : Bytes) :
    text.drop (findByte text b) = [] ∨ (text.drop (findByte text b)).head? = some b := by
  by_cases member : b ∈ text
  · obtain ⟨front, back, rfl, absent⟩ := List.eq_append_cons_of_mem member
    right
    rw [findByte_append b front back absent, List.drop_left, List.head?_cons]
  · left
    have all : findByte text b = text.length :=
      not_not.mp fun here => member ((findByte_ne_length b text).mp here)
    rw [all, List.drop_length]

/-- The assertion of setMethod is the only one. -/
theorem processRequestLine_total (c : HttpContext) (unset : c.request.method = .kInvalid)
    (line : Bytes) : ∃ d ok, c.processRequestLine line = some (d, ok) := by
  simp only [processRequestLine, HttpRequest.setMethod, unset, ↓reduceIte, Option.map_some]
  split
  · exact ⟨_, _, rfl⟩
  · exact ⟨_, _, rfl⟩

/-- On a fresh request the lines of the grammar are accepted and no others, and a line has
one decomposition only, which the request then holds. -/
theorem processRequestLine_grammar (c : HttpContext) (fresh : c.request = HttpRequest.create)
    (line : Bytes) :
    ∃ d ok, c.processRequestLine line = some (d, ok) ∧
      (ok = true ↔ ∃ l : RequestLine, l.text = line) ∧
      (∀ l m : RequestLine, l.text = line → m.text = line → l = m) ∧
      ∀ l : RequestLine, l.text = line →
        d.request.path ++ d.request.query = l.target ∧ 63 ∉ d.request.path ∧
          (d.request.query = [] ∨ d.request.query.head? = some 63) ∧
          d.request.method = l.method ∧ d.request.version = l.version := by
  obtain ⟨d, ok, processed⟩ := processRequestLine_total c (by rw [fresh]; rfl) line
  refine ⟨d, ok, processed, ⟨?_, ?_⟩, ?_, ?_⟩
  · rintro rfl
    exact processRequestLine_accepted c d line processed
  · rintro ⟨l, rfl⟩
    have accepted := processRequestLine_text c fresh l
    rw [processed, Option.some.injEq, Prod.mk.injEq] at accepted
    exact accepted.2
  · intro l m left right
    exact text_injective l m (left.trans right.symm)
  · rintro l rfl
    have accepted := processRequestLine_text c fresh l
    rw [processed, Option.some.injEq, Prod.mk.injEq] at accepted
    rw [accepted.1]
    exact ⟨List.take_append_drop .., notMem_take_findByte 63 l.target,
      head_drop_findByte 63 l.target, rfl, rfl⟩

/-- A request line with a query, for a context that has parsed nothing yet. -/
theorem processRequestLine_grammar_query :
    ∃ d ok, create.processRequestLine (ascii "GET /a?b HTTP/1.1") = some (d, ok) ∧ ok = true ∧
      d.request.path ++ d.request.query = ascii "/a?b" := by
  let l : RequestLine :=
    ⟨.kGet, ascii "/a?b", .kHttp11, by decide, by decide, by decide⟩
  obtain ⟨d, ok, processed, accepted, _, held⟩ :=
    processRequestLine_grammar create rfl (ascii "GET /a?b HTTP/1.1")
  have text : l.text = ascii "GET /a?b HTTP/1.1" := by decide +kernel
  exact ⟨d, ok, processed, accepted.mpr ⟨l, text⟩, (held l text).1⟩

end HttpContext
end Tundra
