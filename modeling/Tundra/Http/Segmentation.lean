import Mathlib.Data.List.Basic
import Tundra.Http.HttpServer

set_option autoImplicit false

/- One request that a connection delivers in several reads. The parser's context
does not outlive a call of onMessage, so every read that completes a line starts
again at that line. -/
namespace Tundra.Segmentation

open Library HttpContext HttpServer

/-- `text` arrives in one read and makes the server dispatch `request`, with nothing
left in the buffer. -/
def Whole (httpCallback : HttpCallback) (text : Bytes) (receiveTime : TimeStamp)
    (request : HttpRequest) : Prop :=
  ∃ buf actions, reads httpCallback Buffer.fresh [(text, receiveTime)] = some (buf, actions) ∧
    dispatched actions = [request] ∧ buf.content = []

/-- The same method, path, query, version and headers. -/
def SameRequest (p q : HttpRequest) : Prop :=
  p.method = q.method ∧ p.path = q.path ∧ p.query = q.query ∧ p.version = q.version ∧
    p.headers = q.headers

/-- One dispatch of the same request and no 400. -/
def Answers (request : HttpRequest) (actions : List HttpAction) : Prop :=
  (∃ received, dispatched actions = [received] ∧ SameRequest received request) ∧
    ¬ Refused actions

/-- The reads have the effect of the one read. -/
def Unaffected (httpCallback : HttpCallback) (deliveries : List (Bytes × TimeStamp))
    (request : HttpRequest) : Prop :=
  ∃ buf actions, reads httpCallback Buffer.fresh deliveries = some (buf, actions) ∧
    Answers request actions

/-- The lines completed by each read are such that starting again does no harm:
every read that completes lines begins with a request line, and the last one with
the same request line as the first, ahead of the closing line, and every field
named up to there is named again behind it. -/
structure Restartable (batches : List (List Bytes)) : Prop where
  accepted : ∀ batch ∈ batches, ∀ line ∈ batch.head?, requestLine line ≠ none
  repeated : ∃ line rest, batches.getLast? = some (line :: rest) ∧ rest ≠ [] ∧
    batches.flatten.head?.map requestLine = some (requestLine line) ∧
    ∀ l ∈ (batches.dropLast.flatten ++ [line]).tail, fieldOf l ∈ rest.dropLast.map fieldOf

/-- What the server makes of a text that it dispatches whole. -/
theorem whole_lines (httpCallback : HttpCallback) (text : Bytes) (receiveTime : TimeStamp)
    (request : HttpRequest) (whole : Whole httpCallback text receiveTime request) :
    ∃ line headers last made, splitLines 13 10 text = (line :: (headers ++ [last]), []) ∧
      requestLine line = some made ∧ (∀ l ∈ headers, isHeader l = true) ∧
      isHeader last = false ∧
      request = { made with
        receiveTime := receiveTime, headers := addHeaders made.headers headers } := by
  obtain ⟨buf, actions, read, once, empty⟩ := whole
  obtain ⟨c, content, first⟩ := reads_cons httpCallback Buffer.fresh text receiveTime []
  rw [Buffer.fresh_content, List.nil_append] at content
  rw [first] at read
  cases lines : (splitLines 13 10 c.content).1 with
  | nil =>
      obtain ⟨r, done, _⟩ := onMessage_wait httpCallback c receiveTime lines
      simp only [done, Option.bind_some, reads, Option.map_some, Option.some.injEq,
        Prod.mk.injEq] at read
      rw [← read.2] at once
      cases once
  | cons line rest =>
      cases accepted : requestLine line with
      | none =>
          obtain ⟨r, a, done, _, none⟩ :=
            onMessage_refuse httpCallback c receiveTime line rest lines accepted
          simp only [done, Option.bind_some, reads, Option.map_some, Option.some.injEq,
            Prod.mk.injEq] at read
          rw [← read.2, List.append_nil, none] at once
          cases once
      | some made =>
          rcases span_headers rest with all | ⟨headers, last, more, rfl, colons, ends⟩
          · obtain ⟨r, done, _⟩ :=
              onMessage_drop httpCallback c receiveTime line rest made lines accepted all
            simp only [done, Option.bind_some, reads, Option.map_some, Option.some.injEq,
              Prod.mk.injEq] at read
            rw [← read.2] at once
            cases once
          · obtain ⟨r, a, done, _, sent, left⟩ := onMessage_dispatch httpCallback c receiveTime
              line headers last more made lines accepted colons ends
            simp only [done, Option.bind_some, reads, Option.map_some, Option.some.injEq,
              Prod.mk.injEq] at read
            rw [← read.2, List.append_nil, sent] at once
            rw [← read.1, left, List.append_eq_nil_iff] at empty
            have none : more = [] := by
              cases more with
              | nil => rfl
              | cons l ls => simp at empty
            subst none
            refine ⟨line, headers, last, made, ?_, accepted, colons, ends, ?_⟩
            · rw [← content]
              exact Prod.ext lines empty.2
            · simpa using once.symm

/-- The first line of each batch is a request line. -/
def Accepted (batches : List (List Bytes)) : Prop :=
  ∀ batch ∈ batches, ∀ line ∈ batch.head?, requestLine line ≠ none

/-- The other lines of each batch are header lines. -/
def Headed (batches : List (List Bytes)) : Prop :=
  ∀ batch ∈ batches, ∀ line ∈ batch.tail, isHeader line = true

/-- A call that finds a request line and header lines only forgets them without a
word. -/
theorem onMessage_forgets (httpCallback : HttpCallback) (c : Buffer) (receiveTime : TimeStamp)
    (accepted : ∀ line ∈ (splitLines 13 10 c.content).1.head?, requestLine line ≠ none)
    (headed : ∀ line ∈ (splitLines 13 10 c.content).1.tail, isHeader line = true) :
    ∃ d, onMessage httpCallback c receiveTime = some (d, []) ∧
      d.content = (splitLines 13 10 c.content).2 := by
  cases lines : (splitLines 13 10 c.content).1 with
  | nil =>
      obtain ⟨d, done, same⟩ := onMessage_wait httpCallback c receiveTime lines
      have whole := unlines_splitLines (a := 13) (b := 10) c.content
      rw [lines, unlines_nil, List.nil_append] at whole
      exact ⟨d, done, same.trans whole.symm⟩
  | cons line others =>
      have good := accepted line (by rw [lines]; rfl)
      obtain ⟨made, accepts⟩ := Option.ne_none_iff_exists'.mp good
      rw [lines, List.tail_cons] at headed
      exact onMessage_drop httpCallback c receiveTime line others made lines accepts headed

theorem reads_forgets (httpCallback : HttpCallback) (deliveries : List (Bytes × TimeStamp))
    (b : Buffer) (unfinished : (splitLines 13 10 b.content).1 = [])
    (headed : Headed (batches 13 10 b.content (deliveries.map Prod.fst)))
    (accepted : Accepted (batches 13 10 b.content (deliveries.map Prod.fst))) :
    ∃ r, reads httpCallback b deliveries = some (r, []) ∧
      r.content = (splitLines 13 10 (b.content ++ (deliveries.map Prod.fst).flatten)).2 := by
  induction deliveries generalizing b with
  | nil =>
      have whole := unlines_splitLines (a := 13) (b := 10) b.content
      rw [unfinished, unlines_nil, List.nil_append] at whole
      exact ⟨b, rfl, by simpa using whole.symm⟩
  | cons delivery rest ih =>
      obtain ⟨delivered, receiveTime⟩ := delivery
      obtain ⟨c, content, first⟩ := reads_cons httpCallback b delivered receiveTime rest
      rw [List.map_cons, batches, ← content] at headed accepted
      obtain ⟨d, done, left⟩ := onMessage_forgets httpCallback c receiveTime
        (accepted _ List.mem_cons_self) (headed _ List.mem_cons_self)
      rw [← left] at headed accepted
      obtain ⟨r, later, last⟩ := ih d (by rw [left, splitLines_rest])
        (fun batch member => headed batch (List.mem_cons_of_mem _ member))
        (fun batch member => accepted batch (List.mem_cons_of_mem _ member))
      refine ⟨r, ?_, ?_⟩
      · simp only [first, done, Option.bind_some, later, Option.map_some, List.nil_append]
      · rw [last, left, List.map_cons, List.flatten_cons, ← List.append_assoc, ← content,
          splitLines_append c.content]

/-- Some read completes a line that is no request line first: the server answers
400. -/
theorem reads_refuses (httpCallback : HttpCallback) (deliveries : List (Bytes × TimeStamp))
    (b : Buffer) (headed : Headed (batches 13 10 b.content (deliveries.map Prod.fst)))
    (bad : ¬ Accepted (batches 13 10 b.content (deliveries.map Prod.fst))) :
    ∃ r actions, reads httpCallback b deliveries = some (r, actions) ∧ Refused actions := by
  induction deliveries generalizing b with
  | nil => exact absurd (fun batch member => by cases member) bad
  | cons delivery rest ih =>
      obtain ⟨delivered, receiveTime⟩ := delivery
      obtain ⟨c, content, first⟩ := reads_cons httpCallback b delivered receiveTime rest
      rw [List.map_cons, batches, ← content] at headed bad
      by_cases here : ∀ line ∈ (splitLines 13 10 c.content).1.head?, requestLine line ≠ none
      · obtain ⟨d, done, left⟩ := onMessage_forgets httpCallback c receiveTime here
          (headed _ List.mem_cons_self)
        rw [← left] at headed bad
        have elsewhere : ¬ Accepted (batches 13 10 d.content (rest.map Prod.fst)) := by
          intro rest
          apply bad
          intro batch member
          rcases List.mem_cons.mp member with rfl | later
          · exact here
          · exact rest batch later
        obtain ⟨r, actions, later, refused⟩ := ih d
          (fun batch member => headed batch (List.mem_cons_of_mem _ member)) elsewhere
        refine ⟨r, actions, ?_, refused⟩
        simp only [first, done, Option.bind_some, later, Option.map_some, List.nil_append]
      · push Not at here
        obtain ⟨line, member, none⟩ := here
        obtain ⟨others, lines⟩ : ∃ others, (splitLines 13 10 c.content).1 = line :: others :=
          List.head?_eq_some_iff.mp member
        obtain ⟨d, actions, done, refused, _⟩ :=
          onMessage_refuse httpCallback c receiveTime line others lines none
        obtain ⟨later, read⟩ := reads_total httpCallback rest d
        refine ⟨later.1, actions ++ later.2, ?_, List.mem_append_left later.2 refused⟩
        simp only [first, done, Option.bind_some, read, Option.map_some]

theorem refused_affected (httpCallback : HttpCallback) (front : List (Bytes × TimeStamp))
    (delivery : Bytes × TimeStamp) (request : HttpRequest)
    (headed : Headed (batches 13 10 [] (front.map Prod.fst)))
    (bad : ¬ Accepted (batches 13 10 [] (front.map Prod.fst))) :
    ¬ Unaffected httpCallback (front ++ [delivery]) request := by
  rintro ⟨buf, actions, read, _, unrefused⟩
  obtain ⟨r, early, done, refused⟩ := reads_refuses httpCallback front Buffer.fresh
    (by rwa [Buffer.fresh_content]) (by rwa [Buffer.fresh_content])
  obtain ⟨⟨d, late⟩, last⟩ := reads_total httpCallback [delivery] r
  simp only [reads_append, done, Option.bind_some, last, Option.map_some, Option.some.injEq,
    Prod.mk.injEq] at read
  apply unrefused
  rw [← read.2]
  exact List.mem_append_left late refused

/-- With every earlier read forgotten, only the last call counts. -/
theorem unaffected_iff_last (httpCallback : HttpCallback) (front : List (Bytes × TimeStamp))
    (delivered : Bytes) (receiveTime : TimeStamp) (request : HttpRequest)
    (headed : Headed (batches 13 10 [] (front.map Prod.fst)))
    (accepted : Accepted (batches 13 10 [] (front.map Prod.fst))) :
    ∃ c d actions, c.content = (splitLines 13 10 (front.map Prod.fst).flatten).2 ++ delivered ∧
      onMessage httpCallback c receiveTime = some (d, actions) ∧
      (Unaffected httpCallback (front ++ [(delivered, receiveTime)]) request ↔
        Answers request actions) := by
  obtain ⟨r, done, left⟩ := reads_forgets httpCallback front Buffer.fresh
    (by rw [Buffer.fresh_content]; rfl) (by rwa [Buffer.fresh_content])
    (by rwa [Buffer.fresh_content])
  rw [Buffer.fresh_content, List.nil_append] at left
  obtain ⟨c, content, last⟩ := reads_cons httpCallback r delivered receiveTime []
  obtain ⟨⟨d, actions⟩, called⟩ := onMessage_total httpCallback c receiveTime
  have read : reads httpCallback Buffer.fresh (front ++ [(delivered, receiveTime)]) =
      some (d, actions) := by
    simp only [reads_append, done, Option.bind_some, last, called]
    simp only [reads, Option.map_some, List.nil_append, List.append_nil]
  refine ⟨c, d, actions, by rw [content, left], called, ?_⟩
  constructor
  · rintro ⟨buf, found, same, answers⟩
    rw [read, Option.some.injEq, Prod.mk.injEq] at same
    rwa [same.2]
  · intro answers
    exact ⟨d, actions, read, answers⟩

/-- The requests made by two request lines and the header lines behind them. -/
theorem sameRequest_iff (line first : Bytes) (made whole : HttpRequest) (headers rest : List Bytes)
    (now early : TimeStamp) (accepted : requestLine line = some made)
    (original : requestLine first = some whole) :
    SameRequest { made with receiveTime := now, headers := addHeaders made.headers rest }
        { whole with receiveTime := early, headers := addHeaders whole.headers headers } ↔
      requestLine first = requestLine line ∧
        addHeaders OrderedMap.empty rest = addHeaders OrderedMap.empty headers := by
  obtain ⟨noHeaders, noTime⟩ := requestLine_fresh line made accepted
  obtain ⟨noHeaders', noTime'⟩ := requestLine_fresh first whole original
  rw [accepted, original, Option.some.injEq]
  simp only [SameRequest, noHeaders, noHeaders']
  constructor
  · rintro ⟨method, path, query, version, same⟩
    refine ⟨?_, same⟩
    cases made
    cases whole
    simp_all
  · rintro ⟨rfl, same⟩
    exact ⟨rfl, rfl, rfl, rfl, same⟩

/-- What the last call answers, from the lines it finds. -/
theorem onMessage_answers_iff (httpCallback : HttpCallback) (c d : Buffer)
    (receiveTime : TimeStamp) (actions : List HttpAction) (line first : Bytes)
    (others headers : List Bytes) (early : TimeStamp) (whole : HttpRequest)
    (called : onMessage httpCallback c receiveTime = some (d, actions))
    (lines : (splitLines 13 10 c.content).1 = line :: others)
    (original : requestLine first = some whole)
    (colons : ∀ l ∈ others.dropLast, isHeader l = true)
    (ends : ∀ l ∈ others.getLast?, isHeader l = false) :
    Answers { whole with receiveTime := early, headers := addHeaders whole.headers headers }
        actions ↔
      requestLine line ≠ none ∧ others ≠ [] ∧ requestLine first = requestLine line ∧
        addHeaders OrderedMap.empty others.dropLast = addHeaders OrderedMap.empty headers := by
  cases accepted : requestLine line with
  | none =>
      obtain ⟨r, found, done, refused, _⟩ :=
        onMessage_refuse httpCallback c receiveTime line others lines accepted
      rw [called, Option.some.injEq, Prod.mk.injEq] at done
      constructor
      · intro answers
        exact absurd (done.2 ▸ refused) answers.2
      · rintro ⟨some, _⟩
        exact absurd rfl some
  | some made =>
      rcases List.eq_nil_or_concat others with none | ⟨rest, last, some⟩
      · obtain ⟨r, done, _⟩ := onMessage_drop httpCallback c receiveTime line others made lines
          accepted (by rw [none]; simp)
        rw [called, Option.some.injEq, Prod.mk.injEq] at done
        constructor
        · rintro ⟨⟨received, once, _⟩, _⟩
          rw [done.2] at once
          cases once
        · rintro ⟨_, some, _⟩
          exact absurd none some
      · rw [List.concat_eq_append] at some
        subst some
        rw [List.dropLast_concat] at colons ⊢
        have closing : isHeader last = false := ends last (by simp)
        obtain ⟨r, found, done, unrefused, once, _⟩ := onMessage_dispatch httpCallback c
          receiveTime line rest last [] made lines accepted colons closing
        rw [called, Option.some.injEq, Prod.mk.injEq] at done
        have same := sameRequest_iff line first made whole headers rest receiveTime early accepted
          original
        rw [accepted] at same
        rw [done.2, Answers, once]
        constructor
        · rintro ⟨⟨received, this, agree⟩, _⟩
          cases this
          exact ⟨by simp, by simp, same.mp agree⟩
        · rintro ⟨_, _, agree⟩
          exact ⟨⟨_, rfl, same.mpr agree⟩, unrefused⟩

/-- A line behind the first one of its batch is behind the first one of all. -/
theorem mem_flatten_tail (batches : List (List Bytes)) (batch : List Bytes) (line : Bytes)
    (member : batch ∈ batches) (inside : line ∈ batch.tail) : line ∈ batches.flatten.tail := by
  induction batches with
  | nil => cases member
  | cons first rest ih =>
      rw [List.flatten_cons]
      cases first with
      | nil =>
          rcases List.mem_cons.mp member with rfl | later
          · cases inside
          · exact ih later
      | cons head tail =>
          rw [List.cons_append, List.tail_cons]
          rcases List.mem_cons.mp member with rfl | later
          · exact List.mem_append_left _ inside
          · apply List.mem_append_right
            exact List.mem_flatten.mpr ⟨batch, later, List.mem_of_mem_tail inside⟩

/-- The lines of the text, as the reads complete them: those before the last read,
and those of the last one, which is never empty. -/
theorem cut_lines (pieces : List Bytes) (delivered : Bytes) (lines : List Bytes)
    (some : delivered ≠ [])
    (split : splitLines 13 10 (pieces.flatten ++ delivered) = (lines, [])) :
    ∃ line others,
      (splitLines 13 10 ((splitLines 13 10 pieces.flatten).2 ++ delivered)).1 = line :: others ∧
      batches 13 10 [] (pieces ++ [delivered]) = batches 13 10 [] pieces ++ [line :: others] ∧
      (batches 13 10 [] pieces).flatten ++ line :: others = lines := by
  have unfinished : (splitLines (13 : UInt8) 10 []).1 = [] := rfl
  have whole := splitLines_append (a := 13) (b := 10) pieces.flatten delivered
  rw [split, Prod.mk.injEq] at whole
  have front := batches_flatten (a := 13) (b := 10) [] pieces unfinished
  have all := batches_append (a := 13) (b := 10) [] pieces [delivered] unfinished
  rw [List.nil_append] at front all
  cases last : (splitLines 13 10 ((splitLines 13 10 pieces.flatten).2 ++ delivered)).1 with
  | nil =>
      have rest := unlines_splitLines (a := 13) (b := 10)
        ((splitLines 13 10 pieces.flatten).2 ++ delivered)
      rw [last, ← whole.2, unlines_nil, List.nil_append] at rest
      exact absurd (List.append_eq_nil_iff.mp rest.symm).2 some
  | cons line others =>
      refine ⟨line, others, rfl, ?_, ?_⟩
      · rw [all, batches, last, batches]
      · rw [front, ← last]
        exact whole.1.symm

/-- Where the lines of the text stand in the batches. -/
theorem cut_positions (bs : List (List Bytes)) (line first last : Bytes)
    (others headers : List Bytes)
    (lines : bs.flatten ++ line :: others = first :: (headers ++ [last])) :
    (∀ l ∈ bs.flatten.tail, l ∈ headers) ∧ (∀ l ∈ others.dropLast, l ∈ headers) ∧
      (∀ l ∈ others.getLast?, l = last) ∧
      (others ≠ [] → headers = (bs.flatten ++ [line]).tail ++ others.dropLast) := by
  rcases List.eq_nil_or_concat others with none | ⟨rest, close, some⟩
  · subst none
    have same : bs.flatten = first :: headers := by
      have regrouped : bs.flatten ++ [line] = (first :: headers) ++ [last] := by simpa using lines
      exact (List.append_inj' regrouped rfl).1
    refine ⟨?_, by simp, by simp, fun some => absurd rfl some⟩
    intro l member
    rwa [same, List.tail_cons] at member
  · rw [List.concat_eq_append] at some
    subst some
    have both : bs.flatten ++ line :: rest = first :: headers ∧ close = last := by
      have regrouped : (bs.flatten ++ line :: rest) ++ [close] = (first :: headers) ++ [last] := by
        simpa using lines
      obtain ⟨fronts, closes⟩ := List.append_inj' regrouped rfl
      exact ⟨fronts, by simpa using closes⟩
    obtain ⟨fronts, rfl⟩ := both
    have tails : headers = (bs.flatten ++ [line]).tail ++ rest := by
      have regrouped : (bs.flatten ++ [line]) ++ rest = first :: headers := by simpa using fronts
      rw [← List.tail_append_of_ne_nil (by simp), regrouped, List.tail_cons]
    rw [List.dropLast_concat]
    refine ⟨?_, ?_, by simp, fun _ => tails⟩
    · intro l member
      rw [tails]
      apply List.mem_append_left
      cases early : bs.flatten with
      | nil => rw [early] at member; cases member
      | cons head tail =>
          rw [early, List.tail_cons] at member
          exact List.mem_append_left [line] member
    · intro l member
      rw [tails]
      exact List.mem_append_right _ member

theorem restartable_iff (bs : List (List Bytes)) (line first last : Bytes)
    (others headers : List Bytes)
    (lines : bs.flatten ++ line :: others = first :: (headers ++ [last])) :
    Restartable (bs ++ [line :: others]) ↔
      Accepted bs ∧ requestLine line ≠ none ∧ others ≠ [] ∧
        requestLine first = requestLine line ∧
        addHeaders OrderedMap.empty others.dropLast = addHeaders OrderedMap.empty headers := by
  obtain ⟨_, _, _, tails⟩ := cut_positions bs line first last others headers lines
  have start : (bs ++ [line :: others]).flatten.head? = some first := by
    rw [List.flatten_append, List.flatten_singleton, lines]
    rfl
  constructor
  · rintro ⟨accepted, line', rest, ended, some, same, again⟩
    rw [List.getLast?_concat, Option.some.injEq, List.cons.injEq] at ended
    obtain ⟨rfl, rfl⟩ := ended
    rw [List.dropLast_concat] at again
    rw [start, Option.map_some, Option.some.injEq] at same
    refine ⟨?_, ?_, some, same, ?_⟩
    · intro batch member
      exact accepted batch (List.mem_append_left _ member)
    · exact accepted _ (List.mem_append_right bs List.mem_cons_self) line rfl
    · rw [tails some, addHeaders_skip]
      exact again
  · rintro ⟨accepted, good, some, same, equal⟩
    refine ⟨?_, line, others, List.getLast?_concat, some, ?_, ?_⟩
    · intro batch member
      rcases List.mem_append.mp member with early | final
      · exact accepted batch early
      · rw [List.mem_singleton.mp final]
        intro l head
        cases head
        exact good
    · rw [start, Option.map_some, same]
    · rw [List.dropLast_concat]
      rw [tails some, addHeaders_skip] at equal
      exact equal

/-- A request that the server dispatches from one read is dispatched the same from
several exactly when the reads are restartable. -/
theorem segmentation_unaffected_iff (httpCallback : HttpCallback) (text : Bytes)
    (receiveTime : TimeStamp) (request : HttpRequest)
    (whole : Whole httpCallback text receiveTime request)
    (deliveries : List (Bytes × TimeStamp)) (cut : (deliveries.map Prod.fst).flatten = text)
    (nonempty : ∀ d ∈ deliveries, d.1 ≠ []) :
    Unaffected httpCallback deliveries request ↔
      Restartable (batches 13 10 [] (deliveries.map Prod.fst)) := by
  obtain ⟨first, headers, last, made, split, original, colons, ends, rfl⟩ :=
    whole_lines httpCallback text receiveTime request whole
  rcases List.eq_nil_or_concat deliveries with none | ⟨front, ⟨delivered, now⟩, some⟩
  · subst none
    subst cut
    cases split
  · rw [List.concat_eq_append] at some
    subst some
    have filled : delivered ≠ [] := nonempty (delivered, now) (by simp)
    rw [List.map_append, List.map_singleton] at cut ⊢
    rw [List.flatten_append, List.flatten_singleton] at cut
    obtain ⟨line, others, found, all, lines⟩ :=
      cut_lines (front.map Prod.fst) delivered _ filled (by rw [cut, split])
    obtain ⟨early, inner, final, _⟩ := cut_positions _ line first last others headers lines
    have headed : Headed (batches 13 10 [] (front.map Prod.fst)) := by
      intro batch member l inside
      exact colons l (early l (mem_flatten_tail _ batch l member inside))
    rw [all, restartable_iff _ line first last others headers lines]
    by_cases accepted : Accepted (batches 13 10 [] (front.map Prod.fst))
    · obtain ⟨c, d, actions, content, called, counts⟩ := unaffected_iff_last httpCallback front
        delivered now { made with
          receiveTime := receiveTime, headers := addHeaders made.headers headers } headed accepted
      rw [← content] at found
      rw [counts, onMessage_answers_iff httpCallback c d now actions line first others headers
        receiveTime made called found original (fun l inside => colons l (inner l inside))
        (fun l closes => final l closes ▸ ends)]
      exact ⟨fun good => ⟨accepted, good⟩, fun good => good.2⟩
    · constructor
      · intro same
        exact absurd same (refused_affected httpCallback front _ _ headed accepted)
      · intro good
        exact absurd good.1 accepted

/-- A callback that answers 200 and leaves the connection open. -/
def plainCallback : HttpCallback := fun _ response => { response with statusCode := .k200OK }

def plainRequest : HttpRequest :=
  { HttpRequest.create with method := .kGet, version := .kHttp11, path := ascii "/" }

def plainText : Bytes := ascii "GET / HTTP/1.1\r\n\r\n"

theorem plain_lines : splitLines 13 10 plainText = ([ascii "GET / HTTP/1.1", []], []) := by
  decide +kernel

theorem plain_accepted : requestLine (ascii "GET / HTTP/1.1") = some plainRequest := by
  decide +kernel

/-- A request line, header lines and the empty line in one read. -/
theorem whole_of_lines (httpCallback : HttpCallback) (text : Bytes) (receiveTime : TimeStamp)
    (line : Bytes) (headers : List Bytes) (request : HttpRequest)
    (lines : splitLines 13 10 text = (line :: (headers ++ [[]]), []))
    (accepted : requestLine line = some request) (colons : ∀ l ∈ headers, isHeader l = true) :
    Whole httpCallback text receiveTime { request with
      receiveTime := receiveTime, headers := addHeaders request.headers headers } := by
  obtain ⟨c, content, first⟩ := reads_cons httpCallback Buffer.fresh text receiveTime []
  rw [Buffer.fresh_content, List.nil_append] at content
  have split : splitLines 13 10 c.content = (line :: (headers ++ [[]]), []) := by
    rw [content, lines]
  obtain ⟨r, actions, done, _, once, left⟩ := onMessage_dispatch httpCallback c receiveTime line
    headers [] [] request (by rw [split]) accepted colons (by decide)
  refine ⟨r, actions, ?_, once, ?_⟩
  · simp only [first, done, Option.bind_some]
    simp only [reads, Option.map_some, List.append_nil]
  · rw [left, split]
    rfl

theorem plain_whole : Whole plainCallback plainText 0 plainRequest :=
  whole_of_lines plainCallback plainText 0 (ascii "GET / HTTP/1.1") [] plainRequest plain_lines
    plain_accepted (List.forall_mem_nil _)

/-- Two reads, the first of them cut off inside the request line. -/
theorem segmentation_unaffected_plain :
    Unaffected plainCallback [(ascii "GET / HT", 1), (ascii "TP/1.1\r\n\r\n", 2)] plainRequest := by
  apply (segmentation_unaffected_iff plainCallback plainText 0 plainRequest plain_whole _
    (by decide +kernel) (by decide +kernel)).mpr
  have bs : batches 13 10 [] ([(ascii "GET / HT", (1 : TimeStamp)), (ascii "TP/1.1\r\n\r\n", 2)].map
      Prod.fst) = [[], [ascii "GET / HTTP/1.1", []]] := by decide +kernel
  rw [bs]
  refine ⟨?_, ascii "GET / HTTP/1.1", [[]], rfl, by simp, rfl, by simp⟩
  intro batch member line head
  have same : line = ascii "GET / HTTP/1.1" := by
    simp only [List.mem_cons, List.not_mem_nil, or_false] at member
    rcases member with rfl | rfl
    · cases head
    · exact (Option.some.inj head).symm
  rw [same, plain_accepted]
  simp

/-- The cut between the request line and the empty line: 400 and no request. -/
theorem segmentation_affected :
    Whole plainCallback plainText 0 plainRequest ∧
      plainText = ascii "GET / HTTP/1.1\r\n" ++ ascii "\r\n" ∧
      (∃ buf, reads plainCallback Buffer.fresh
          [(ascii "GET / HTTP/1.1\r\n", 1), (ascii "\r\n", 2)] =
        some (buf, [.sendString badRequest, .shutdown])) ∧
      ¬ Unaffected plainCallback [(ascii "GET / HTTP/1.1\r\n", 1), (ascii "\r\n", 2)]
        plainRequest := by
  have seen : (reads plainCallback Buffer.fresh
      [(ascii "GET / HTTP/1.1\r\n", 1), (ascii "\r\n", 2)]).map Prod.snd =
        some [.sendString badRequest, .shutdown] := by
    decide +kernel
  obtain ⟨⟨buf, actions⟩, read, same⟩ := Option.map_eq_some_iff.mp seen
  obtain rfl : actions = [.sendString badRequest, .shutdown] := same
  refine ⟨plain_whole, by decide +kernel, ⟨buf, read⟩, ?_⟩
  rintro ⟨buf', actions', read', answers⟩
  rw [read, Option.some.injEq, Prod.mk.injEq] at read'
  apply answers.2
  rw [← read'.2]
  exact List.mem_cons_self

end Tundra.Segmentation
