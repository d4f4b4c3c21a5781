/-
How long a response of the own web server is.

* `httpResponseLength`: `http_response_length`, with reads of the bytes that have arrived
  only;
* `selfProbeRead`: the loop of the self-probe that reads a response to its end;
* `HeadersAt`, `declaredLength`: where the headers end, and what they say of the body;
* `httpResponseLength_eq`, `httpResponseLength_zero`: the length in these terms;
* `TotalFits`: when the total of headers and body is one that `size_t` can hold.
-/
import ArcticController.Base.CrlfText
import ArcticController.Base.IntegerText

namespace ArcticController

/-! ### The length -/

/-- An upper-case letter as a lower-case one. -/
def lowerCase (c : UInt8) : UInt8 := if 0x41 ≤ c ∧ c ≤ 0x5A then c - 0x41 + 0x61 else c

/-- `starts_with_nocase`. -/
def startsWithNocase (buf : List UInt8) (s : ℕ) (lower : List UInt8) : Option Bool :=
  readsAs lowerCase buf s lower

/-- The empty line behind the last header, with the end of that. -/
def crlfCrlf : List UInt8 := crlf ++ crlf

/-- The first loop, from `i` on. -/
def headerEndLoop (buf : List UInt8) : ℕ → ℕ → Option ℕ
  | 0, _ => some 0
  | fuel + 1, i =>
      if i + 4 ≤ buf.length then do
        if ← readsAs id buf i crlfCrlf then some (i + 4) else headerEndLoop buf fuel (i + 1)
      else some 0

/-- `"content-length:"`. -/
def contentLengthName : List UInt8 :=
  [0x63, 0x6F, 0x6E, 0x74, 0x65, 0x6E, 0x74, 0x2D, 0x6C, 0x65, 0x6E, 0x67, 0x74, 0x68, 0x3A]

def spaceOrTab (b : UInt8) : Bool := b == 0x20 || b == 0x09

/-- The loop over the blanks; where the value begins. -/
def blankLoop (buf : List UInt8) (headerEnd : ℕ) : ℕ → ℕ → Option ℕ
  | 0, p => some p
  | fuel + 1, p =>
      if p < headerEnd then do
        if spaceOrTab (← buf[p]?) then blankLoop buf headerEnd fuel (p + 1) else some p
      else some p

/-- The loop over the digits. -/
def digitLoop (buf : List UInt8) (headerEnd : ℕ) : ℕ → ℕ → UInt32 → Option UInt32
  | 0, _, body => some body
  | fuel + 1, p, body =>
      if p < headerEnd then do
        let c ← buf[p]?
        if isdigit c then digitLoop buf headerEnd fuel (p + 1) (body * 10 + (c - 0x30).toUInt32)
        else some body
      else some body

/-- The second loop, from `i` on. -/
def bodyLoop (buf : List UInt8) (headerEnd : ℕ) : ℕ → ℕ → Option UInt32
  | 0, _ => some 0
  | fuel + 1, i =>
      if i + 2 + contentLengthName.length ≤ headerEnd then do
        let named ← if ← readsAs id buf i crlf then startsWithNocase buf (i + 2) contentLengthName
          else some false
        if named then do
          let p ← blankLoop buf headerEnd headerEnd (i + 2 + contentLengthName.length)
          digitLoop buf headerEnd headerEnd p 0
        else bodyLoop buf headerEnd fuel (i + 1)
      else some 0

/-- `http_response_length`, with `size_t` of 32 bits; `none` is a read outside the bytes. -/
def httpResponseLength (buf : List UInt8) : Option UInt32 := do
  let headerEnd ← headerEndLoop buf buf.length 0
  if headerEnd = 0 then return 0
  let body ← bodyLoop buf headerEnd headerEnd 0
  return UInt32.ofNat headerEnd + body

/-- The loop of the self-probe: `resp` has `room` bytes, and `reads` is what the calls of
`esp_tls_conn_read` put there, one after the other. -/
def selfProbeRead (room : ℕ) : List (List UInt8) → List UInt8 → UInt32 →
    Option (List UInt8 × UInt32)
  | [], resp, total => some (resp, total)
  | data :: reads, resp, total =>
      if resp.length < room ∧ (total = 0 ∨ resp.length < total.toNat) then
        if data = [] then some (resp, total)
        else do
          let total ← httpResponseLength (resp ++ data)
          selfProbeRead room reads (resp ++ data) total
      else some (resp, total)

/-! ### What the headers say -/

/-- The text from its start to where the headers end. -/
def HeadersAt (buf : List UInt8) (headerEnd : ℕ) : Prop :=
  ∃ i, FirstAt crlfCrlf buf i ∧ headerEnd = i + 4

/-- A line named Content-Length, in letters of any case. -/
def namedContentLength (line : List UInt8) : Bool :=
  contentLengthName.isPrefixOf (line.map lowerCase)

/-- The number behind the name. -/
def fieldValue (line : List UInt8) : ℕ :=
  digitsValue (((line.drop contentLengthName.length).dropWhile spaceOrTab).takeWhile isdigit)

/-- The length the headers declare: the value of the first such line, the status line
left out. -/
def declaredLength (headers : List UInt8) : ℕ :=
  (((crlfLines headers).2.find? namedContentLength).map fieldValue).getD 0

/-! ### The loops -/

lemma crlfCrlf_ne_nil : crlfCrlf ≠ [] := by decide

variable {buf resp : List UInt8} {headerEnd : ℕ} {len : UInt32}

lemma HeadersAt.le_length (h : HeadersAt buf headerEnd) : headerEnd ≤ buf.length := by
  obtain ⟨i, hfirst, rfl⟩ := h
  exact hfirst.add_length_le crlfCrlf_ne_nil

lemma readsAs_id {i : ℕ} {pat : List UInt8} (h : i + pat.length ≤ buf.length) :
    readsAs id buf i pat = some (pat.isPrefixOf (buf.drop i)) := by
  rw [readsAs_eq id h, List.map_id]

/-- The first loop stops at the first empty line, if there is one. -/
lemma headerEndLoop_spec {fuel i : ℕ} (hfuel : buf.length ≤ i + fuel)
    (hbefore : ∀ j < i, ¬ crlfCrlf <+: buf.drop j) :
    (∃ headerEnd, headerEndLoop buf fuel i = some headerEnd ∧ HeadersAt buf headerEnd) ∨
      headerEndLoop buf fuel i = some 0 ∧ ¬ crlfCrlf <:+: buf := by
  have hend : ¬ i + 4 ≤ buf.length → ¬ crlfCrlf <:+: buf := by
    intro hroom hinfix
    obtain ⟨j, hfirst⟩ := infix_iff_firstAt.mp hinfix
    have hle : j + 4 ≤ buf.length := hfirst.add_length_le crlfCrlf_ne_nil
    exact hbefore j (by omega) hfirst.here
  induction fuel generalizing i with
  | zero => exact .inr ⟨rfl, hend (by omega)⟩
  | succ fuel ih =>
      rw [headerEndLoop]
      by_cases hroom : i + 4 ≤ buf.length
      · rw [if_pos hroom, readsAs_id hroom]
        dsimp only [Option.bind_eq_bind, Option.bind_some]
        by_cases hhere : crlfCrlf.isPrefixOf (buf.drop i) = true
        · rw [if_pos hhere]
          exact .inl ⟨i + 4, rfl, i, ⟨List.isPrefixOf_iff_prefix.mp hhere, hbefore⟩, rfl⟩
        · rw [if_neg hhere]
          have hbefore' : ∀ j < i + 1, ¬ crlfCrlf <+: buf.drop j := by
            intro j hj
            rcases Nat.lt_succ_iff_lt_or_eq.mp hj with hlt | rfl
            · exact hbefore j hlt
            · exact fun hpre => hhere (List.isPrefixOf_iff_prefix.mpr hpre)
          refine ih (by omega) hbefore' fun hroom' hinfix => ?_
          obtain ⟨j, hfirst⟩ := infix_iff_firstAt.mp hinfix
          have hle : j + 4 ≤ buf.length := hfirst.add_length_le crlfCrlf_ne_nil
          exact hbefore' j (by omega) hfirst.here
      · rw [if_neg hroom]
        exact .inr ⟨rfl, hend hroom⟩

section Headers

variable {buf : List UInt8} {headerEnd : ℕ}

/-- A byte of the headers. -/
lemma drop_take_cons (hle : headerEnd ≤ buf.length) {p : ℕ} (hp : p < headerEnd) :
    ∃ c, buf[p]? = some c ∧ (buf.take headerEnd).drop p = c :: (buf.take headerEnd).drop (p + 1) := by
  have hlt : p < (buf.take headerEnd).length := by
    rw [List.length_take]
    omega
  refine ⟨buf[p], List.getElem?_eq_getElem (by omega), ?_⟩
  rw [List.drop_eq_getElem_cons hlt, List.getElem_take]

lemma drop_take_nil {p : ℕ} (hp : ¬ p < headerEnd) : (buf.take headerEnd).drop p = [] := by
  rw [List.drop_eq_nil_iff, List.length_take]
  omega

lemma blankLoop_eq (hle : headerEnd ≤ buf.length) {fuel p : ℕ} (hfuel : headerEnd ≤ p + fuel) :
    ∃ p', blankLoop buf headerEnd fuel p = some p' ∧
      (buf.take headerEnd).drop p' = ((buf.take headerEnd).drop p).dropWhile spaceOrTab := by
  induction fuel generalizing p with
  | zero =>
      refine ⟨p, rfl, ?_⟩
      rw [drop_take_nil (by omega)]
      rfl
  | succ fuel ih =>
      rw [blankLoop]
      by_cases hp : p < headerEnd
      · obtain ⟨c, hread, hdrop⟩ := drop_take_cons hle hp
        rw [if_pos hp, hread, hdrop]
        dsimp only [Option.bind_eq_bind, Option.bind_some]
        by_cases hblank : spaceOrTab c = true
        · rw [if_pos hblank, List.dropWhile_cons_of_pos hblank]
          exact ih (by omega)
        · rw [if_neg hblank, List.dropWhile_cons_of_neg hblank]
          exact ⟨p, rfl, hdrop⟩
      · rw [if_neg hp, drop_take_nil hp]
        exact ⟨p, rfl, drop_take_nil hp⟩

lemma digitLoop_eq (hle : headerEnd ≤ buf.length) {fuel p : ℕ} (hfuel : headerEnd ≤ p + fuel)
    (n : ℕ) : digitLoop buf headerEnd fuel p (UInt32.ofNat n)
      = some (UInt32.ofNat ((((buf.take headerEnd).drop p).takeWhile isdigit).foldl
          (fun n b => n * 10 + (b - 0x30).toNat) n)) := by
  induction fuel generalizing p n with
  | zero =>
      rw [drop_take_nil (by omega)]
      rfl
  | succ fuel ih =>
      rw [digitLoop]
      by_cases hp : p < headerEnd
      · obtain ⟨c, hread, hdrop⟩ := drop_take_cons hle hp
        rw [if_pos hp, hread, hdrop]
        dsimp only [Option.bind_eq_bind, Option.bind_some]
        by_cases hdigit : isdigit c = true
        · have hvalue : UInt32.ofNat n * 10 + (c - 0x30).toUInt32
              = UInt32.ofNat (n * 10 + (c - 0x30).toNat) := by
            rw [UInt32.ofNat_add, UInt32.ofNat_mul, UInt32.ofNat_uInt8ToNat]
            rfl
          rw [if_pos hdigit, List.takeWhile_cons_of_pos hdigit, List.foldl_cons, hvalue]
          exact ih (by omega) _
        · rw [if_neg hdigit, List.takeWhile_cons_of_neg hdigit]
          rfl
      · rw [if_neg hp, drop_take_nil hp]
        rfl

/-- What a text shorter than the name begins with is something else. -/
lemma scanLines_short {t : List UInt8} (h : t.length < 2 + contentLengthName.length) :
    scanLines namedContentLength t = none := by
  induction t with
  | nil => rfl
  | cons b t ih =>
      have hname : contentLengthName.length = 15 := rfl
      rw [List.length_cons] at h
      have hno : namedContentLength ((b :: t).drop 2) = false := by
        by_contra hnamed
        have hpre := List.isPrefixOf_iff_prefix.mp (Bool.not_eq_false _ ▸ hnamed)
        have hlen := hpre.length_le
        rw [List.length_map, List.length_drop, List.length_cons] at hlen
        omega
      rw [scanLines, hno, Bool.and_false, if_neg (by decide)]
      exact ih (by omega)

/-- The second loop finds the line and reads its value. -/
lemma bodyLoop_eq (hle : headerEnd ≤ buf.length) {fuel i : ℕ} (hfuel : headerEnd ≤ i + fuel) :
    bodyLoop buf headerEnd fuel i
      = some (UInt32.ofNat (((scanLines namedContentLength ((buf.take headerEnd).drop i)).map
          fieldValue).getD 0)) := by
  induction fuel generalizing i with
  | zero =>
      rw [drop_take_nil (by omega)]
      rfl
  | succ fuel ih =>
      rw [bodyLoop]
      have hname : contentLengthName.length = 15 := rfl
      by_cases hroom : i + 2 + contentLengthName.length ≤ headerEnd
      · have hlen : (buf.take headerEnd).length = headerEnd := List.length_take_of_le hle
        obtain ⟨c, -, hdrop⟩ := drop_take_cons hle (show i < headerEnd by omega)
        have hbehind : (c :: (buf.take headerEnd).drop (i + 1)).drop 2
            = (buf.take headerEnd).drop (i + 2) := by
          rw [← hdrop, List.drop_drop]
        have hcrlf : readsAs id buf i crlf
            = some (crlf.isPrefixOf (c :: (buf.take headerEnd).drop (i + 1))) := by
          have hroom' : i + crlf.length ≤ headerEnd := le_trans (by simp [crlf]) hroom
          rw [← readsAs_take id hroom', readsAs_id (by rw [hlen]; exact hroom'), hdrop]
        have hnamed : startsWithNocase buf (i + 2) contentLengthName
            = some (namedContentLength ((buf.take headerEnd).drop (i + 2))) := by
          rw [startsWithNocase, ← readsAs_take _ hroom, readsAs_eq _ (by rw [hlen]; exact hroom)]
          rfl
        rw [if_pos hroom, hdrop, scanLines, hcrlf, hnamed, hbehind]
        dsimp only [Option.bind_eq_bind, Option.bind_some]
        cases crlf.isPrefixOf (c :: (buf.take headerEnd).drop (i + 1)) with
        | false =>
            rw [Bool.false_and, if_neg (by decide), if_neg (by decide)]
            exact ih (by omega)
        | true =>
            rw [Bool.true_and, if_pos rfl]
            cases namedContentLength ((buf.take headerEnd).drop (i + 2)) with
            | false =>
                rw [if_neg (by decide), if_neg (by decide)]
                exact ih (by omega)
            | true =>
                obtain ⟨p, hblank, hvalue⟩ := blankLoop_eq hle
                  (show headerEnd ≤ i + 2 + contentLengthName.length + headerEnd by omega)
                rw [if_pos rfl, if_pos rfl, hblank]
                dsimp only [Option.bind_some, Option.map_some, Option.getD_some]
                refine (digitLoop_eq hle (show headerEnd ≤ p + headerEnd by omega) 0).trans ?_
                rw [hvalue, fieldValue, digitsValue, List.drop_drop]
      · have hshort : ((buf.take headerEnd).drop i).length < 2 + contentLengthName.length := by
          rw [List.length_drop, List.length_take]
          omega
        rw [if_neg hroom, scanLines_short hshort]
        rfl

/-! ### The length in these terms -/

/-- A line is named by what stands in it. -/
lemma namedContentLength_append (l rest : List UInt8) :
    namedContentLength (l ++ crlf ++ rest) = namedContentLength l := by
  rw [namedContentLength, namedContentLength, List.append_assoc, List.map_append]
  exact isPrefixOf_append_cons (by decide) _ _

lemma fieldValue_append {l : List UInt8} (h : namedContentLength l = true) (rest : List UInt8) :
    fieldValue (l ++ crlf ++ rest) = fieldValue l := by
  have hlen := (List.isPrefixOf_iff_prefix.mp h).length_le
  rw [List.length_map] at hlen
  rw [fieldValue, fieldValue, List.append_assoc, List.drop_append_of_le_length hlen]
  exact congrArg digitsValue (takeWhile_dropWhile_append_cons (by decide) (by decide) _ _)

lemma httpResponseLength_zero (h : ¬ crlfCrlf <:+: buf) : httpResponseLength buf = some 0 := by
  rcases headerEndLoop_spec (Nat.le_add_left buf.length 0) nofun with
    ⟨headerEnd, -, i, hfirst, -⟩ | ⟨hloop, -⟩
  · exact absurd (infix_iff_firstAt.mpr ⟨i, hfirst⟩) h
  · rw [httpResponseLength, hloop]
    rfl

lemma HeadersAt.unique {headerEnd' : ℕ} (h : HeadersAt buf headerEnd)
    (h' : HeadersAt buf headerEnd') : headerEnd = headerEnd' := by
  obtain ⟨i, hfirst, rfl⟩ := h
  obtain ⟨j, hfirst', rfl⟩ := h'
  rw [hfirst.unique hfirst']

lemma infix_iff_headersAt : crlfCrlf <:+: buf ↔ ∃ headerEnd, HeadersAt buf headerEnd := by
  rw [infix_iff_firstAt]
  constructor
  · rintro ⟨i, hfirst⟩
    exact ⟨i + 4, i, hfirst, rfl⟩
  · rintro ⟨-, i, hfirst, -⟩
    exact ⟨i, hfirst⟩

lemma HeadersAt.append (h : HeadersAt buf headerEnd) (more : List UInt8) :
    HeadersAt (buf ++ more) headerEnd := by
  obtain ⟨i, hfirst, rfl⟩ := h
  exact ⟨i, hfirst.append crlfCrlf_ne_nil more, rfl⟩

/-- Where the headers are complete the length is theirs and the declared one. -/
lemma httpResponseLength_eq (h : HeadersAt buf headerEnd) : httpResponseLength buf
    = some (UInt32.ofNat (headerEnd + declaredLength (buf.take headerEnd))) := by
  rcases headerEndLoop_spec (Nat.le_add_left buf.length 0) nofun with
    ⟨end', hloop, hend'⟩ | ⟨-, hnone⟩
  · obtain rfl := hend'.unique h
    have hne : end' ≠ 0 := by
      obtain ⟨i, -, rfl⟩ := h
      omega
    have hlines := scanLines_map namedContentLength_append
      (fun l rest hnamed => fieldValue_append hnamed rest) (buf.take end')
    rw [httpResponseLength, hloop]
    dsimp only [Option.bind_eq_bind, Option.bind_some]
    rw [if_neg hne, bodyLoop_eq h.le_length (Nat.le_add_left end' 0), List.drop_zero, hlines,
      UInt32.ofNat_add]
    rfl
  · exact absurd (infix_iff_headersAt.mpr ⟨headerEnd, h⟩) hnone

/-- More bytes do not change what the headers say. -/
lemma httpResponseLength_append (h : HeadersAt buf headerEnd) (more : List UInt8) :
    httpResponseLength (buf ++ more) = httpResponseLength buf := by
  rw [httpResponseLength_eq h, httpResponseLength_eq (h.append more),
    List.take_append_of_le_length h.le_length]

end Headers

/-! ### Bytes that arrive in pieces -/

/-- The pieces up to the first one that reaches `place`, or all of them. -/
def StopsAt (place : ℕ) (reads : List (List UInt8)) (resp : List UInt8) : Prop :=
  ∃ done rest, reads = done ++ rest ∧ resp = done.flatten ∧ (place ≤ resp.length ∨ rest = []) ∧
    ∀ first more, done = first ++ more → more ≠ [] → first.flatten.length < place

/-- How the length is to divide a stream into responses. -/
structure Framed (stream : List UInt8) : Prop where
  /-- Only bytes that have arrived are read. -/
  answered : ∀ buf, buf <+: stream → ∃ len, httpResponseLength buf = some len
  zero_iff : ∀ buf, buf <+: stream → (httpResponseLength buf = some 0 ↔ ¬ crlfCrlf <:+: buf)
  total : ∀ buf len, buf <+: stream → httpResponseLength buf = some len → len ≠ 0 →
    ∃ headerEnd, HeadersAt buf headerEnd ∧ (declaredLength (buf.take headerEnd) < 2 ^ 32 →
      len.toNat = headerEnd + declaredLength (buf.take headerEnd))
  stable : ∀ buf buf' len, buf <+: buf' → buf' <+: stream → httpResponseLength buf = some len →
    len ≠ 0 → httpResponseLength buf' = some len
  /-- However the stream is divided into reads, a client stops with the one that reaches the
  same place. -/
  stops : ∀ headerEnd len, HeadersAt stream headerEnd → httpResponseLength stream = some len →
    len ≠ 0 → ∀ room reads, (∀ data ∈ reads, data ≠ []) → reads.flatten = stream →
      max headerEnd len.toNat ≤ room → ∃ resp,
        selfProbeRead room reads [] 0 = some (resp, len) ∧
          StopsAt (max headerEnd len.toNat) reads resp

/-- The total fits in `size_t` if the declared length does; if it does not, its remainder
is not taken for incomplete headers. -/
def TotalFits (stream : List UInt8) : Prop :=
  ∀ headerEnd, HeadersAt stream headerEnd →
    if declaredLength (stream.take headerEnd) < 2 ^ 32 then
      headerEnd + declaredLength (stream.take headerEnd) < 2 ^ 32
    else (headerEnd + declaredLength (stream.take headerEnd)) % 2 ^ 32 ≠ 0

lemma httpResponseLength_answered (buf : List UInt8) : ∃ len, httpResponseLength buf = some len := by
  by_cases h : crlfCrlf <:+: buf
  · obtain ⟨headerEnd, hend⟩ := infix_iff_headersAt.mp h
    exact ⟨_, httpResponseLength_eq hend⟩
  · exact ⟨0, httpResponseLength_zero h⟩

/-- A length other than 0 is that of complete headers. -/
lemma headersAt_of_ne_zero (h : httpResponseLength buf = some len) (hne : len ≠ 0) :
    ∃ headerEnd, HeadersAt buf headerEnd := by
  rw [← infix_iff_headersAt]
  by_contra hno
  rw [httpResponseLength_zero hno] at h
  exact hne (Option.some.inj h).symm

lemma httpResponseLength_stable {buf' : List UInt8} (hpre : buf <+: buf')
    (h : httpResponseLength buf = some len) (hne : len ≠ 0) :
    httpResponseLength buf' = some len := by
  obtain ⟨more, rfl⟩ := hpre
  obtain ⟨headerEnd, hend⟩ := headersAt_of_ne_zero h hne
  rw [httpResponseLength_append hend, h]

/-- What has arrived, once the headers have, is a response of the same length. -/
lemma length_of_arrived {rest : List UInt8} (hend : HeadersAt (resp ++ rest) headerEnd)
    (h : httpResponseLength (resp ++ rest) = some len) (harrived : headerEnd ≤ resp.length) :
    httpResponseLength resp = some len := by
  obtain ⟨i, hfirst, rfl⟩ := hend
  have hhere : HeadersAt resp (i + 4) := by
    refine ⟨i, ⟨(prefix_drop_append_iff rest harrived).mp hfirst.here, fun j hj hpre => ?_⟩, rfl⟩
    have hroom : j + crlfCrlf.length ≤ resp.length :=
      le_trans (by simp [crlfCrlf, crlf]; omega) harrived
    exact hfirst.before j hj ((prefix_drop_append_iff rest hroom).mpr hpre)
  rw [← h, httpResponseLength_append hhere]

/-- The loop goes on until the place is reached. -/
lemma goes_on_iff {rest : List UInt8} {room : ℕ} {total : UInt32}
    (hend : HeadersAt (resp ++ rest) headerEnd)
    (hlen : httpResponseLength (resp ++ rest) = some len) (hne : len ≠ 0)
    (hroom : max headerEnd len.toNat ≤ room) (htotal : httpResponseLength resp = some total) :
    (resp.length < room ∧ (total = 0 ∨ resp.length < total.toNat)) ↔
      resp.length < max headerEnd len.toNat := by
  by_cases hzero : total = 0
  · have hmissing : resp.length < headerEnd := by
      by_contra harrived
      have hall := length_of_arrived hend hlen (not_lt.mp harrived)
      rw [htotal, hzero] at hall
      exact hne (Option.some.inj hall).symm
    constructor
    · exact fun _ => lt_max_of_lt_left hmissing
    · exact fun hlt => ⟨lt_of_lt_of_le hlt hroom, .inl hzero⟩
  · have hsame := httpResponseLength_stable (List.prefix_append resp rest) htotal hzero
    obtain rfl : total = len := Option.some.inj (hsame.symm.trans hlen)
    obtain ⟨headerEnd', hend'⟩ := headersAt_of_ne_zero htotal hzero
    have harrived : headerEnd ≤ resp.length := by
      rw [hend.unique (hend'.append rest)]
      exact hend'.le_length
    constructor
    · rintro ⟨-, h | h⟩
      · exact absurd h hzero
      · exact lt_max_of_lt_right h
    · intro hlt
      refine ⟨lt_of_lt_of_le hlt hroom, .inr ?_⟩
      rcases lt_max_iff.mp hlt with h | h
      · exact absurd h (not_lt.mpr harrived)
      · exact h

/-- From any bytes that have arrived, the loop stops with the read that reaches the place. -/
lemma selfProbeRead_stops {room : ℕ} {reads : List (List UInt8)} {total : UInt32}
    (hend : HeadersAt (resp ++ reads.flatten) headerEnd)
    (hlen : httpResponseLength (resp ++ reads.flatten) = some len) (hne : len ≠ 0)
    (hdata : ∀ data ∈ reads, data ≠ []) (hroom : max headerEnd len.toNat ≤ room)
    (htotal : httpResponseLength resp = some total) :
    ∃ done rest, reads = done ++ rest ∧
      selfProbeRead room reads resp total = some (resp ++ done.flatten, len) ∧
      (max headerEnd len.toNat ≤ (resp ++ done.flatten).length ∨ rest = []) ∧
      ∀ first more, done = first ++ more → more ≠ [] →
        (resp ++ first.flatten).length < max headerEnd len.toNat := by
  induction reads generalizing resp total with
  | nil =>
      rw [List.flatten_nil, List.append_nil] at hlen
      obtain rfl : total = len := Option.some.inj (htotal.symm.trans hlen)
      refine ⟨[], [], rfl, ?_, .inr rfl, fun first more h hmore => ?_⟩
      · rw [List.flatten_nil, List.append_nil]
        rfl
      · exact absurd (List.append_eq_nil_iff.mp h.symm).2 hmore
  | cons data reads ih =>
      rw [selfProbeRead]
      by_cases hgoes : resp.length < max headerEnd len.toNat
      · obtain ⟨total', htotal'⟩ := httpResponseLength_answered (resp ++ data)
        rw [List.flatten_cons, ← List.append_assoc] at hend hlen
        obtain ⟨done, rest, hreads, hread, hplace, hfirst⟩ :=
          ih hend hlen (fun d hd => hdata d (List.mem_cons_of_mem _ hd)) htotal'
        refine ⟨data :: done, rest, by rw [hreads]; rfl, ?_, ?_, ?_⟩
        · rw [List.append_assoc] at hend hlen
          rw [if_pos ((goes_on_iff hend hlen hne hroom htotal).mpr hgoes),
            if_neg (hdata data List.mem_cons_self), htotal', List.flatten_cons, ← List.append_assoc]
          exact hread
        · rwa [List.flatten_cons, ← List.append_assoc]
        · intro first more h hmore
          cases first with
          | nil =>
              rw [List.flatten_nil, List.append_nil]
              exact hgoes
          | cons d first =>
              obtain ⟨rfl, htail⟩ := List.cons.inj h
              rw [List.flatten_cons, ← List.append_assoc]
              exact hfirst first more htail hmore
      · have hall := length_of_arrived hend hlen
          ((le_max_left _ _).trans (not_lt.mp hgoes))
        obtain rfl : total = len := Option.some.inj (htotal.symm.trans hall)
        rw [if_neg (mt (goes_on_iff hend hlen hne hroom htotal).mp hgoes)]
        refine ⟨[], data :: reads, rfl, ?_, .inl ?_, fun first more h hmore => ?_⟩
        · rw [List.flatten_nil, List.append_nil]
        · rw [List.flatten_nil, List.append_nil]
          exact not_lt.mp hgoes
        · exact absurd (List.append_eq_nil_iff.mp h.symm).2 hmore

lemma totalFits_of_framed {stream : List UInt8} (h : Framed stream) : TotalFits stream := by
  intro headerEnd hend
  have hlen := httpResponseLength_eq hend
  have hnonzero : UInt32.ofNat (headerEnd + declaredLength (stream.take headerEnd)) ≠ 0 := by
    intro hzero
    rw [hzero] at hlen
    exact (h.zero_iff stream (List.prefix_refl _)).mp hlen (infix_iff_headersAt.mpr ⟨headerEnd, hend⟩)
  split
  · next hfits =>
      obtain ⟨headerEnd', hend', htotal⟩ := h.total stream _ (List.prefix_refl _) hlen hnonzero
      obtain rfl := hend'.unique hend
      rw [← htotal hfits]
      exact UInt32.toNat_lt _
  · intro hmod
    refine hnonzero (UInt32.toNat_inj.mp ?_)
    rw [UInt32.toNat_ofNat']
    exact hmod

lemma framed_of_totalFits {stream : List UInt8} (h : TotalFits stream) : Framed stream where
  answered := fun buf _ => httpResponseLength_answered buf
  zero_iff := by
    rintro buf ⟨more, rfl⟩
    constructor
    · intro hzero hinfix
      obtain ⟨headerEnd, hend⟩ := infix_iff_headersAt.mp hinfix
      have hfits := h headerEnd (hend.append more)
      rw [httpResponseLength_eq hend] at hzero
      rw [List.take_append_of_le_length hend.le_length] at hfits
      have hmod : (headerEnd + declaredLength (buf.take headerEnd)) % 2 ^ 32 = 0 := by
        rw [← UInt32.toNat_ofNat', Option.some.inj hzero]
        rfl
      have hpos : 0 < headerEnd := by
        obtain ⟨i, -, rfl⟩ := hend
        omega
      split at hfits
      · rw [Nat.mod_eq_of_lt hfits] at hmod
        omega
      · exact hfits hmod
    · exact httpResponseLength_zero
  total := by
    rintro buf len ⟨more, rfl⟩ hlen hne
    obtain ⟨headerEnd, hend⟩ := headersAt_of_ne_zero hlen hne
    refine ⟨headerEnd, hend, fun hsmall => ?_⟩
    have hfits := h headerEnd (hend.append more)
    rw [List.take_append_of_le_length hend.le_length, if_pos hsmall] at hfits
    rw [httpResponseLength_eq hend] at hlen
    rw [← Option.some.inj hlen]
    exact UInt32.toNat_ofNat_of_lt' hfits
  stable := fun _ _ _ hpre _ hlen hne => httpResponseLength_stable hpre hlen hne
  stops := by
    rintro headerEnd len hend hlen hne room reads hdata rfl hroom
    obtain ⟨done, rest, hreads, hread, hplace, hfirst⟩ := selfProbeRead_stops
      (show HeadersAt ([] ++ reads.flatten) headerEnd from hend) hlen hne hdata hroom (httpResponseLength_zero (by simp [crlfCrlf, crlf]))
    exact ⟨done.flatten, hread, done, rest, hreads, rfl, hplace, hfirst⟩

/-- **Responses are framed wherever the total fits**: the length divides a stream the same
way however it arrives, and is that of the headers and the declared body, if and only if
`size_t` can hold the total. -/
theorem framed_iff (stream : List UInt8) : Framed stream ↔ TotalFits stream :=
  ⟨totalFits_of_framed, framed_of_totalFits⟩

/-- The headers of `HTTP/1.1 200 OK` with `Content-Length: 4294967249`. -/
def wrappingResponse : List UInt8 :=
  [0x48, 0x54, 0x54, 0x50, 0x2F, 0x31, 0x2E, 0x31, 0x20, 0x32, 0x30, 0x30, 0x20, 0x4F, 0x4B,
    0x0D, 0x0A, 0x43, 0x6F, 0x6E, 0x74, 0x65, 0x6E, 0x74, 0x2D, 0x4C, 0x65, 0x6E, 0x67, 0x74,
    0x68, 0x3A, 0x20, 0x34, 0x32, 0x39, 0x34, 0x39, 0x36, 0x37, 0x32, 0x34, 0x39,
    0x0D, 0x0A, 0x0D, 0x0A]

/-- Complete headers whose total wraps to 0, the length of incomplete ones. -/
theorem not_framed_wrappingResponse : httpResponseLength wrappingResponse = some 0 ∧
    declaredLength wrappingResponse < 2 ^ 32 ∧ ¬ Framed wrappingResponse := by
  have hzero : httpResponseLength wrappingResponse = some 0 := by decide +kernel
  have hinfix : crlfCrlf <:+: wrappingResponse := by decide +kernel
  exact ⟨hzero, by decide +kernel,
    fun h => (h.zero_iff wrappingResponse (List.prefix_refl _)).mp hzero hinfix⟩

end ArcticController
