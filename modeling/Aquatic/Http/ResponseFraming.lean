import Aquatic.Http.ResponseBuffer

/-!
# The frames that responses are sent in

The same buffer is written to for all responses on a connection. Between two of them it
holds the header around any eight bytes, and whatever is left of the responses before.
-/

namespace Aquatic.Http
open HttpProtocol Text
set_option autoImplicit false

/-- The buffer of a new connection. -/
def newResponseBuffer (config : ServerConfig) : List UInt8 :=
  copyInto (.replicate (responseBufferSize config) 0) 0 responseHeader

/-- The digits of a content length, with spaces in what is left of their room. -/
def paddedLength (contentLen : Nat) : List UInt8 :=
  itoa contentLen ++ responseHeaderB.drop (itoa contentLen).length

/-- The whole body and a line end behind a header that counts both, or nothing at all. -/
def framed (size : Nat) (body : List UInt8) : Except ConnectionError (List UInt8) :=
  if size < 47 + body.length ∨ 8 < (itoa (body.length + 2)).length then .error .responseBufferFull
  else .ok (responseHeaderA ++ paddedLength (body.length + 2) ++ responseHeaderC ++ body ++
    utf8 "\r\n".toList)

/-- The buffers on a connection, and what became of the responses that were written to them. The
rest of the connection may have changed between any two. -/
inductive Written (config : ServerConfig) :
    List UInt8 → List (Response × Except ConnectionError (List UInt8)) → Prop where
  | new : Written config (newResponseBuffer config) []
  | write {connection after : Connection} {response : Response}
      {outcome : Except ConnectionError (List UInt8)}
      {outcomes : List (Response × Except ConnectionError (List UInt8))} :
      Written config connection.responseBuffer outcomes →
      connection.writeResponse response = some (outcome, after) →
      Written config after.responseBuffer (outcomes ++ [(response, outcome)])

/-- A header around any eight bytes, and room for a line end at least. -/
structure Headed (size : Nat) (buffer : List UInt8) : Prop where
  header : ∃ field rest, field.length = 8 ∧
    buffer = responseHeaderA ++ (field ++ (responseHeaderC ++ rest))
  length : buffer.length = size
  room : 47 ≤ size

theorem copyInto_append {old bytes : List UInt8} (h : bytes.length = old.length) {start : Nat}
    (front back : List UInt8) (hstart : start = front.length) :
    copyInto (front ++ (old ++ back)) start bytes = front ++ (bytes ++ back) := by
  subst hstart
  rw [copyInto, List.take_left, h, ← List.length_append, ← List.append_assoc front old,
    List.drop_left, List.append_assoc]

theorem header_lengths : responseHeaderA.length = 33 ∧ responseHeaderB.length = 8 ∧
    responseHeaderC.length = 4 ∧ (utf8 "\r\n".toList).length = 2 := by decide

theorem headed_of {size : Nat} {field rest : List UInt8} (hfield : field.length = 8)
    (hsize : size = 45 + rest.length) (hroom : 47 ≤ size) :
    Headed size (responseHeaderA ++ (field ++ (responseHeaderC ++ rest))) := by
  obtain ⟨hA, -, hC, -⟩ := header_lengths
  refine ⟨⟨field, rest, hfield, rfl⟩, ?_, hroom⟩
  simp only [List.length_append, hA, hC, hfield]
  omega

theorem headed_new (config : ServerConfig) :
    Headed (responseBufferSize config) (newResponseBuffer config) := by
  have hroom : 47 ≤ responseBufferSize config := by
    unfold responseBufferSize saturatingAdd usizeMax
    simp only [length_responseHeader]
    omega
  have hnew : newResponseBuffer config =
      responseHeader ++ .replicate (responseBufferSize config - 45) 0 := by
    rw [newResponseBuffer, copyInto, List.take_zero, List.nil_append, List.drop_replicate,
      Nat.zero_add, length_responseHeader]
  rw [hnew, responseHeader, List.append_assoc, List.append_assoc]
  exact headed_of header_lengths.2.1 (by rw [List.length_replicate]; omega) hroom

/-- The line end is written behind the body, and the old content length is cleared. -/
theorem copyInto_newline {field old : List UInt8} (hfield : field.length = 8) (hold : old.length = 2)
    (body back : List UInt8) :
    copyInto (copyInto (responseHeaderA ++ (field ++ responseHeaderC) ++ (body ++ (old ++ back)))
      (45 + body.length) (utf8 "\r\n".toList)) responseHeaderA.length responseHeaderB =
      responseHeaderA ++ (responseHeaderB ++ (responseHeaderC ++ (body ++
        (utf8 "\r\n".toList ++ back)))) := by
  obtain ⟨hA, hB, hC, hend⟩ := header_lengths
  rw [← List.append_assoc _ body, copyInto_append (hend.trans hold.symm)]
  · simp only [List.append_assoc]
    exact copyInto_append (hB.trans hfield.symm) _ _ rfl
  · simp only [List.length_append, hA, hC, hfield]

theorem copyInto_length {contentLen : Nat} (h : (itoa contentLen).length ≤ 8)
    (rest : List UInt8) :
    copyInto (responseHeaderA ++ (responseHeaderB ++ rest)) responseHeaderA.length
      (itoa contentLen) = responseHeaderA ++ (paddedLength contentLen ++ rest) := by
  have hB : responseHeaderB.length = 8 := header_lengths.2.1
  conv_lhs => rw [← List.take_append_drop (itoa contentLen).length responseHeaderB]
  rw [List.append_assoc, copyInto_append _ _ _ rfl, paddedLength, List.append_assoc]
  rw [List.length_take]
  omega

theorem length_paddedLength {contentLen : Nat} (h : (itoa contentLen).length ≤ 8) :
    (paddedLength contentLen).length = 8 := by
  have hB : responseHeaderB.length = 8 := header_lengths.2.1
  rw [paddedLength, List.length_append, List.length_drop]
  omega

/-- The header that stands in the buffer, and what is behind it. -/
theorem Headed.parts {size : Nat} {buffer : List UInt8} (h : Headed size buffer) :
    ∃ field rest, field.length = 8 ∧ size = 45 + rest.length ∧
      buffer.take 45 = responseHeaderA ++ (field ++ responseHeaderC) ∧ buffer.drop 45 = rest ∧
      usizeSub buffer.length 45 = some rest.length := by
  obtain ⟨⟨field, rest, hfield, hbuffer⟩, hlength, hroom⟩ := h
  obtain ⟨hA, -, hC, -⟩ := header_lengths
  have hsplit : buffer = (responseHeaderA ++ (field ++ responseHeaderC)) ++ rest := by
    simp [hbuffer]
  have hheader : (responseHeaderA ++ (field ++ responseHeaderC)).length = 45 := by
    simp [hA, hC, hfield]
  have hrest : size = 45 + rest.length := by
    rw [← hlength, hsplit, List.length_append, hheader]
  refine ⟨field, rest, hfield, hrest, ?_, ?_, ?_⟩
  · rw [hsplit, List.take_left' hheader]
  · rw [hsplit, List.drop_left' hheader]
  · rw [usizeSub_of_le (by omega), hlength, hrest, Nat.add_sub_cancel_left]

/-- The outcome depends on the size of the buffer and on the response only. -/
theorem writeResponse_framed {size : Nat} {connection : Connection}
    (h : Headed size connection.responseBuffer) (response : Response) :
    ∃ after, connection.writeResponse response =
        some (framed size response.pieces.flatten, after) ∧ Headed size after.responseBuffer := by
  obtain ⟨field, rest, hfield, hrest, htake, hdrop, hsub⟩ := h.parts
  have hroom := h.room
  obtain ⟨hA, hB, hC, hend⟩ := header_lengths
  unfold Connection.writeResponse framed
  simp only [length_responseHeader, hsub, htake, hdrop, writeToSlice_eq]
  generalize response.pieces.flatten = body
  rw [Option.bind_eq_bind, Option.bind_some]
  by_cases hfull : size < 47 + body.length
  · -- the position that was reached is at the end of the buffer, or one byte before it
    rw [if_pos (by simp only [List.length_append, hA, hC, hfield, List.length_take,
      List.length_drop]; omega), if_pos (.inl hfull)]
    refine ⟨_, rfl, ?_⟩
    simp only [List.append_assoc]
    refine headed_of hfield ?_ hroom
    simp only [List.length_append, List.length_take, List.length_drop]
    omega
  · obtain ⟨old, back, hold, hcut⟩ : ∃ old back, old.length = 2 ∧
        rest.drop body.length = old ++ back :=
      ⟨(rest.drop body.length).take 2, (rest.drop body.length).drop 2, by simp; omega,
        (List.take_append_drop _ _).symm⟩
    have hback : rest.length = body.length + 2 + back.length := by
      have hlengths := congrArg List.length hcut
      rw [List.length_drop, List.length_append, hold] at hlengths
      omega
    have hmin : min body.length rest.length = body.length := by omega
    have hwhole : body.take rest.length = body := List.take_of_length_le (by omega)
    rw [hmin, hwhole, hcut, copyInto_newline hfield hold]
    rw [if_neg (by simp only [List.length_append, hA, hC, hfield]; omega)]
    by_cases hdigits : 8 < (itoa (body.length + 2)).length
    · rw [if_pos (by omega), if_pos (.inr hdigits)]
      refine ⟨_, rfl, headed_of hB ?_ hroom⟩
      simp only [List.length_append, hend]
      omega
    · have hpadded := length_paddedLength (Nat.le_of_not_lt hdigits)
      have hsent : (responseHeaderA ++ (paddedLength (body.length + 2) ++ (responseHeaderC ++ (body ++
          (utf8 "\r\n".toList ++ back))))).take (45 + body.length + 2) = responseHeaderA ++
            paddedLength (body.length + 2) ++ responseHeaderC ++ body ++ utf8 "\r\n".toList := by
        simp only [← List.append_assoc]
        apply List.take_left'
        simp only [List.length_append, hA, hC, hend, hpadded]
      rw [if_neg (by omega), if_neg (by omega), copyInto_length (Nat.le_of_not_lt hdigits), hsent]
      refine ⟨_, rfl, headed_of hpadded ?_ hroom⟩
      simp only [List.length_append, hend]
      omega

/-- Whatever was written before, and however much of it fitted. -/
structure Framed : Prop where
  total : ∀ config (connection : Connection) outcomes,
    Written config connection.responseBuffer outcomes → ∀ response,
      (connection.writeResponse response).isSome
  outcomes : ∀ config buffer outcomes, Written config buffer outcomes →
    ∀ response outcome, (response, outcome) ∈ outcomes →
      outcome = framed (responseBufferSize config) response.pieces.flatten

theorem responses_framed : Framed := by
  have hrun : ∀ {config buffer outcomes}, Written config buffer outcomes →
      Headed (responseBufferSize config) buffer ∧
        ∀ response outcome, (response, outcome) ∈ outcomes →
          outcome = framed (responseBufferSize config) response.pieces.flatten := by
    intro config buffer outcomes h
    induction h with
    | new =>
      refine ⟨headed_new config, ?_⟩
      intro response outcome hmem
      exact absurd hmem List.not_mem_nil
    | @write connection after response outcome outcomes hbefore hwrite ih =>
      obtain ⟨after', hwrite', hheaded⟩ := writeResponse_framed ih.1 response
      rw [hwrite'] at hwrite
      obtain ⟨rfl, rfl⟩ := Prod.mk.inj (Option.some.inj hwrite)
      refine ⟨hheaded, ?_⟩
      intro response' outcome' hmem
      rcases List.mem_append.mp hmem with hmem | hmem
      · exact ih.2 response' outcome' hmem
      · obtain ⟨rfl, rfl⟩ := Prod.mk.inj (List.mem_singleton.mp hmem)
        rfl
  constructor
  · intro config connection outcomes h response
    obtain ⟨after, hwrite, -⟩ := writeResponse_framed (hrun h).1 response
    rw [hwrite]
    rfl
  · intro config buffer outcomes h
    exact (hrun h).2

end Aquatic.Http
