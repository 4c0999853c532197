import WifiRepeater.Json.RoundTrip
import WifiRepeater.Web.ConfigPost

/-!
# Bodies that arrive in pieces

A receive call returns what has arrived, which may be less than was asked for.  The two
handlers with a body make one such call and parse what it returned; the variable with the
length is named `remaining`, but nothing loops until nothing remains.  They read the body
as text, so what they miss does not matter behind its first NUL byte.  And `cJSON_Parse` lets
anything follow the value, so it does not matter behind the end of the JSON either: then the
first piece is accepted, and what it says is what the body says.

## Main definitions

* `Splits`, `Request.inPieces` — a body and the pieces the network makes of it.
* `SameAsWhole` — a handler answers and stores as if the body came whole.

## Main results

* `every_parser_iff` — when the pieces make no difference, whatever the parser.
* `pieces_iff` — **when they make none with cJSON**: exactly when the first piece is accepted
  or the body is not.
* `split_body_rejected` — a configuration in two pieces that is refused.
-/

namespace WifiRepeater

open Json (Doubles cJsonParser cJsonParser_front)

/-- Pieces of a body, none of them empty. -/
structure Splits (segments : List (List UInt8)) (body : List UInt8) : Prop where
  /-- Together they are the body. -/
  flatten : segments.flatten = body
  /-- A receive call returns a byte at least. -/
  ne_nil : ∀ segment ∈ segments, segment ≠ []

/-- A request whose body arrives in pieces. -/
def Request.inPieces (body : List UInt8) (segments : List (List UInt8)) : Request :=
  ⟨body.length, segments⟩

/-- What the first receive call returns. -/
def firstPiece (segments : List (List UInt8)) : List UInt8 := segments.head?.getD []

/-- The handler answers the same and leaves the same store as when the body arrives in one
piece, whatever the store holds and whichever of its calls fail. -/
def SameAsWhole (handler : Request → Prog Served) (body : List UInt8)
    (segments : List (List UInt8)) : Prop :=
  ∀ (fs : List (Option EspErr)) (s : Nvs),
    ((handler (.inPieces body segments)).run nvs fs s).value
        = ((handler (.whole body)).run nvs fs s).value ∧
      ((handler (.inPieces body segments)).run nvs fs s).state
        = ((handler (.whole body)).run nvs fs s).state

/-- A handler that issues the same calls does the same. -/
theorem sameAsWhole_of_eq {handler : Request → Prog Served} {body : List UInt8}
    {segments : List (List UInt8)}
    (h : handler (.inPieces body segments) = handler (.whole body)) :
    SameAsWhole handler body segments := fun fs s => by rw [h]; exact ⟨rfl, rfl⟩

/-! ### What is read -/

section Split

variable {segments : List (List UInt8)} {body : List UInt8}

/-- The first piece is a part of the body. -/
theorem firstPiece_isPart (h : Splits segments body) : firstPiece segments <+: body := by
  rw [← h.flatten]
  cases segments with
  | nil => exact List.nil_prefix
  | cons segment rest => exact List.prefix_append _ _

/-- So is its text of the body's. -/
theorem ofMem_firstPiece_isPart (h : Splits segments body) :
    (CStr.ofMem (firstPiece segments)).bytes <+: (CStr.ofMem body).bytes := by
  obtain ⟨rest, hrest⟩ := firstPiece_isPart h
  rw [← hrest]
  by_cases hzero : 0 ∈ firstPiece segments
  · exact ⟨[], by rw [List.append_nil, CStr.ofMem_append hzero rest]⟩
  · rw [CStr.ofMem_append_of_noNul hzero rest,
      CStr.ofMem_of_noNul (l := firstPiece segments) fun b hb h0 => hzero (h0 ▸ hb)]
    exact List.prefix_append _ _

theorem firstPiece_eq_nil_iff (h : Splits segments body) :
    firstPiece segments = [] ↔ body = [] := by
  rw [← h.flatten]
  cases segments with
  | nil => exact iff_of_true rfl rfl
  | cons segment rest =>
    have hne : segment ≠ [] := h.ne_nil segment List.mem_cons_self
    exact iff_of_false hne (by simp [hne])

/-- A handler reads the first piece as it reads a whole body. -/
theorem recvBody_inPieces (h : Splits segments body) :
    recvBody (.inPieces body segments) = recvBody (.whole (firstPiece segments)) := by
  have hlen := (firstPiece_isPart h).length_le
  cases segments with
  | nil => rfl
  | cons segment rest =>
    have htake : segment.take body.length = segment := List.take_of_length_le hlen
    simp [recvBody, httpdReqRecv, Request.inPieces, Request.whole, firstPiece, htake]

/-- The text of the first piece is that of the body exactly when the piece reaches up to
the body's first NUL. -/
theorem ofMem_firstPiece_iff (h : Splits segments body) :
    CStr.ofMem (firstPiece segments) = CStr.ofMem body ↔
      (CStr.ofMem body).length ≤ (firstPiece segments).length := by
  obtain ⟨rest, hrest⟩ := firstPiece_isPart h
  rw [← hrest]
  constructor
  · intro heq
    rw [← heq]
    exact CStr.length_ofMem_le _
  · intro hle
    by_cases hzero : 0 ∈ firstPiece segments
    · exact (CStr.ofMem_append hzero rest).symm
    · -- no NUL in the first piece, so the text runs on behind it, unless it ends there
      have hrun := CStr.ofMem_append_of_noNul hzero rest
      have hnil : (CStr.ofMem rest).bytes = [] := by
        rw [CStr.length, hrun, List.length_append] at hle
        exact List.eq_nil_of_length_eq_zero (by omega)
      have hself := CStr.ofMem_of_noNul (l := firstPiece segments) fun b hb h0 => hzero (h0 ▸ hb)
      apply CStr.ext
      rw [hrun, hnil, List.append_nil, hself]

/-- What a parser makes of the body as it is read. -/
theorem parse_inPieces (h : Splits segments body) (P : CJsonParser)
    (hparse : P.parse (.ofMem (firstPiece segments)) = P.parse (.ofMem body)) :
    (recvBody (.inPieces body segments)).map P.parse = (recvBody (.whole body)).map P.parse := by
  rw [recvBody_inPieces h]
  by_cases hnil : body = []
  · rw [(firstPiece_eq_nil_iff h).mpr hnil, hnil]
  · rw [recvBody_whole hnil, recvBody_whole (mt (firstPiece_eq_nil_iff h).mp hnil),
      Option.map_some, Option.map_some, hparse]

/-! ### What is done with it -/

/-- Two requests whose bodies parse to the same. -/
theorem parsed_cases {P : CJsonParser} {r r' : Request}
    (hparse : (recvBody r).map P.parse = (recvBody r').map P.parse) :
    recvBody r = none ∧ recvBody r' = none ∨
      ∃ text text', recvBody r = some text ∧ recvBody r' = some text' ∧
        P.parse text = P.parse text' := by
  cases hr : recvBody r with
  | none => exact Or.inl ⟨rfl, by simpa [hr] using hparse.symm⟩
  | some text =>
    obtain ⟨text', hr', heq⟩ : ∃ text', recvBody r' = some text' ∧
        P.parse text' = P.parse text := by
      simpa [hr, Option.map_eq_some_iff] using hparse.symm
    exact Or.inr ⟨text, text', rfl, hr', heq.symm⟩

/-- The configuration handler looks at the length and at the parsed body. -/
theorem apiConfigPostHandler_congr {P : CJsonParser} {r r' : Request}
    (hlen : r.contentLen = r'.contentLen)
    (hparse : (recvBody r).map P.parse = (recvBody r').map P.parse) (c₀ : RepeaterConfig) :
    apiConfigPostHandler P r c₀ = apiConfigPostHandler P r' c₀ := by
  have hpost : postAndSave P r c₀ = postAndSave P r' c₀ := by
    unfold postAndSave
    rw [hlen]
    rcases parsed_cases hparse with ⟨hr, hr'⟩ | ⟨text, text', hr, hr', heq⟩
    · rw [hr, hr']
    · rw [hr, hr']
      simp only [heq]
  unfold apiConfigPostHandler
  rw [hpost]

/-- So does the login handler. -/
theorem apiAuthHandler_congr {P : CJsonParser} {r r' : Request}
    (hlen : r.contentLen = r'.contentLen)
    (hparse : (recvBody r).map P.parse = (recvBody r').map P.parse) (method : HttpMethod) :
    apiAuthHandler P method r = apiAuthHandler P method r' := by
  unfold apiAuthHandler
  rw [hlen]
  rcases parsed_cases hparse with ⟨hr, hr'⟩ | ⟨text, text', hr, hr', heq⟩
  · rw [hr, hr']
  · rw [hr, hr']
    simp only [heq]

/-- **The same parsed body, the same outcome**, for both handlers. -/
theorem sameAsWhole_of_parse (h : Splits segments body) {P : CJsonParser}
    (hparse : P.parse (.ofMem (firstPiece segments)) = P.parse (.ofMem body)) :
    (∀ c₀, SameAsWhole (fun req => apiConfigPostHandler P req c₀) body segments) ∧
      ∀ method, SameAsWhole (apiAuthHandler P method) body segments := by
  have hsame := parse_inPieces h P hparse
  have hlen : (Request.inPieces body segments).contentLen = (Request.whole body).contentLen := rfl
  exact ⟨fun c₀ => sameAsWhole_of_eq (apiConfigPostHandler_congr hlen hsame c₀),
    fun method => sameAsWhole_of_eq (apiAuthHandler_congr hlen hsame method)⟩

/-! ### What is missed -/

/-- A first piece that ends before the text does: a parser that knows the whole text only
rejects it. -/
theorem parsed_of_short (h : Splits segments body) (root : CJson)
    (hshort : ¬(CStr.ofMem body).length ≤ (firstPiece segments).length) :
    recvBody (.whole body) = some (.ofMem body) ∧
      (CJsonParser.knowing (.ofMem body) root).parse (.ofMem body) = some root ∧
      recvBody (.inPieces body segments) = some (.ofMem (firstPiece segments)) ∧
      (CJsonParser.knowing (.ofMem body) root).parse (.ofMem (firstPiece segments)) = none := by
  have htext : CStr.ofMem body ≠ .empty := by
    intro hempty
    rw [hempty] at hshort
    exact hshort (Nat.zero_le _)
  have hne : body ≠ [] := fun hnil => htext (by rw [hnil]; rfl)
  have hdiff := mt (ofMem_firstPiece_iff h).mp hshort
  refine ⟨recvBody_whole hne, knowing_parse htext root, ?_, if_neg fun hk => hdiff hk.1⟩
  rw [recvBody_inPieces h, recvBody_whole (mt (firstPiece_eq_nil_iff h).mp hne)]

/-- An empty object posts nothing, so the configuration in force is saved again. -/
theorem apiConfigPostHandler_emptyObject {P : CJsonParser} {req : Request} {text : CStr}
    (hlen : req.contentLen < 1024) (htext : recvBody req = some text)
    (hparse : P.parse text = some (.object [])) (c₀ : RepeaterConfig) :
    ((apiConfigPostHandler P req c₀).run nvs [] none).value = savedOk := by
  have hmerged : mergedConfig P req c₀ [] none
      = some ((loadOrDefault c₀).run nvs [] none).value := by
    rw [mergedConfig, htext, Option.bind_some, hparse]
    rfl
  have hv : ((loadOrDefault c₀).run nvs [] none).value.settings.Valid := by
    rw [settings_loadOrDefault]
    exact inForce_valid none
  rw [apiConfigPostHandler_of_ok (postAndSave_nil hlen hmerged hv), (run_recordSaved _ _ _).1]

/-- A text that is no JSON is refused by both handlers. -/
theorem apiConfigPostHandler_reject {P : CJsonParser} {req : Request} {text : CStr}
    (hlen : req.contentLen < 1024) (htext : recvBody req = some text)
    (hparse : P.parse text = none) (c₀ : RepeaterConfig) :
    apiConfigPostHandler P req c₀ = pure (sendErr 400 "Invalid JSON") := by
  unfold apiConfigPostHandler postAndSave
  rw [if_neg (by omega), htext]
  simp only [hparse]
  rfl

theorem apiAuthHandler_reject {P : CJsonParser} {req : Request} {text : CStr}
    (hpos : req.contentLen ≠ 0) (hlen : req.contentLen < 256) (htext : recvBody req = some text)
    (hparse : P.parse text = none) :
    apiAuthHandler P .post req = pure (sendErr 400 "Invalid JSON") := by
  unfold apiAuthHandler
  rw [if_neg (by simp), if_neg (by omega), htext]
  simp only [hparse]

/-- An empty object names no user. -/
theorem apiAuthHandler_emptyObject {P : CJsonParser} {req : Request} {text : CStr}
    (hpos : req.contentLen ≠ 0) (hlen : req.contentLen < 256) (htext : recvBody req = some text)
    (hparse : P.parse text = some (.object [])) :
    apiAuthHandler P .post req = pure (sendErr 400 "Missing credentials") := by
  unfold apiAuthHandler
  rw [if_neg (by simp), if_neg (by omega), htext]
  simp only [hparse]
  rfl

theorem config_differs_of_short (h : Splits segments body) (hlen : body.length < 1024)
    (hshort : ¬(CStr.ofMem body).length ≤ (firstPiece segments).length) (c₀ : RepeaterConfig) :
    ¬SameAsWhole (fun req => apiConfigPostHandler (.knowing (.ofMem body) (.object [])) req c₀)
      body segments := by
  intro hsame
  obtain ⟨hwhole, hparse, hpieces, hreject⟩ := parsed_of_short h (.object []) hshort
  have hval := (hsame [] none).1
  simp only [apiConfigPostHandler_reject hlen hpieces hreject,
    apiConfigPostHandler_emptyObject hlen hwhole hparse] at hval
  exact absurd hval (by decide)

theorem auth_differs_of_short (h : Splits segments body) (hlen : body.length < 256)
    (hshort : ¬(CStr.ofMem body).length ≤ (firstPiece segments).length) :
    ¬SameAsWhole (apiAuthHandler (.knowing (.ofMem body) (.object [])) .post) body segments := by
  intro hsame
  obtain ⟨hwhole, hparse, hpieces, hreject⟩ := parsed_of_short h (.object []) hshort
  have hpos : body.length ≠ 0 := by
    have := CStr.length_ofMem_le body
    omega
  have hval := (hsame [] none).1
  rw [apiAuthHandler_reject hpos hlen hpieces hreject,
    apiAuthHandler_emptyObject hpos hlen hwhole hparse] at hval
  exact absurd hval (by decide)

end Split

/-- **When the pieces make no difference to any parser**, for every body that the size checks
let pass and every way it is split: both handlers do what they do with the whole body if the
first piece parses to the same, and they do it under every parser exactly when the first piece
reaches up to the body's first NUL. -/
theorem every_parser_iff (body : List UInt8) (segments : List (List UInt8))
    (h : Splits segments body) (hlen : body.length < 1024) :
    ((∀ P c₀, SameAsWhole (fun req => apiConfigPostHandler P req c₀) body segments) ↔
      (CStr.ofMem body).length ≤ (firstPiece segments).length) ∧
    (body.length < 256 → ((∀ P, SameAsWhole (apiAuthHandler P .post) body segments) ↔
      (CStr.ofMem body).length ≤ (firstPiece segments).length)) ∧
    ∀ P : CJsonParser, P.parse (.ofMem (firstPiece segments)) = P.parse (.ofMem body) →
      (∀ c₀, SameAsWhole (fun req => apiConfigPostHandler P req c₀) body segments) ∧
        SameAsWhole (apiAuthHandler P .post) body segments := by
  have hsame : (CStr.ofMem body).length ≤ (firstPiece segments).length →
      ∀ P : CJsonParser, P.parse (.ofMem (firstPiece segments)) = P.parse (.ofMem body) :=
    fun hle P => congrArg P.parse ((ofMem_firstPiece_iff h).mpr hle)
  refine ⟨⟨fun hall => ?_, fun hle P => (sameAsWhole_of_parse h (hsame hle P)).1⟩,
    fun hauth => ⟨fun hall => ?_, fun hle P => (sameAsWhole_of_parse h (hsame hle P)).2 _⟩,
    fun P hparse => ?_⟩
  · by_contra hshort
    exact config_differs_of_short h hlen hshort wifiConfigGetDefault (hall _ _)
  · by_contra hshort
    exact auth_differs_of_short h hauth hshort (hall _)
  · obtain ⟨hconfig, hauth⟩ := sameAsWhole_of_parse h hparse
    exact ⟨hconfig, hauth _⟩

/-! ### With cJSON -/

section Accepted

variable {P : CJsonParser} {req : Request} {text : CStr} {root : CJson}

/-- The merge looks at nothing but what is posted. -/
theorem mergeAndSave_congr {root' : CJson} (h : Posted.of root = Posted.of root')
    (c₀ : RepeaterConfig) : mergeAndSave root c₀ = mergeAndSave root' c₀ := by
  unfold mergeAndSave
  rw [h]

/-- What the first part answers about a body that was parsed is not that it is no JSON. -/
theorem mergeAndSave_ne (root : CJson) (c₀ : RepeaterConfig) (fs : List (Option EspErr)) (s : Nvs) :
    ((mergeAndSave root c₀).run nvs fs s).value ≠ .error (sendErr 400 "Invalid JSON") := by
  simp only [mergeAndSave, Script.run_bind]
  generalize updateConfig (Posted.of root) ((loadOrDefault c₀).run nvs fs s).value = c
  generalize ((loadOrDefault c₀).run nvs fs s).faults = fs'
  generalize ((loadOrDefault c₀).run nvs fs s).state = s'
  cases wifiConfigValidate c with
  | error e =>
    intro h
    exact absurd (Except.error.inj h) (by decide)
  | ok u =>
    simp only [Script.run_bind]
    cases ((wifiConfigSave c).run nvs fs' s').value with
    | error e =>
      intro h
      exact absurd (Except.error.inj h) (by decide)
    | ok u =>
      intro h
      cases h

theorem postAndSave_parsed (hlen : req.contentLen < 1024) (htext : recvBody req = some text)
    (hparse : P.parse text = some root) (c₀ : RepeaterConfig) :
    postAndSave P req c₀ = mergeAndSave root c₀ := by
  unfold postAndSave
  rw [if_neg (by omega), htext]
  simp only [hparse]

/-- A configuration that was parsed is not answered as one that was not. -/
theorem apiConfigPostHandler_ne (hlen : req.contentLen < 1024) (htext : recvBody req = some text)
    (hparse : P.parse text = some root) (c₀ : RepeaterConfig) (fs : List (Option EspErr))
    (s : Nvs) :
    ((apiConfigPostHandler P req c₀).run nvs fs s).value ≠ sendErr 400 "Invalid JSON" := by
  have hpost := postAndSave_parsed hlen htext hparse c₀
  have hne := mergeAndSave_ne root c₀ fs s
  rcases hvalue : ((postAndSave P req c₀).run nvs fs s).value with a | c
  · rw [apiConfigPostHandler_of_error hvalue]
    rintro rfl
    rw [hpost] at hvalue
    exact hne hvalue
  · rw [apiConfigPostHandler_of_ok hvalue, (run_recordSaved _ _ _).1]
    show savedOk ≠ _
    decide

/-- Nor is a login. -/
theorem apiAuthHandler_ne (hpos : req.contentLen ≠ 0) (hlen : req.contentLen < 256)
    (htext : recvBody req = some text) (hparse : P.parse text = some root)
    (fs : List (Option EspErr)) (s : Nvs) :
    ((apiAuthHandler P .post req).run nvs fs s).value ≠ sendErr 400 "Invalid JSON" := by
  unfold apiAuthHandler
  rw [if_neg (by simp), if_neg (by omega), htext]
  simp only [hparse]
  have hmissing : sendErr 400 "Missing credentials" ≠ sendErr 400 "Invalid JSON" := by decide
  cases postedString root "username" with
  | none => exact hmissing
  | some username =>
    cases postedString root "password" with
    | none => exact hmissing
    | some password =>
      simp only [Script.run_bind]
      cases ((wifiConfigVerifyAuth username password).run nvs fs s).value with
      | false =>
        intro h
        have hok : true = false := congrArg Served.ok h
        cases hok
      | true =>
        intro h
        have hok : true = false := congrArg Served.ok h
        cases hok

end Accepted

section Cjson

variable {P : CJsonParser} {segments : List (List UInt8)} {body : List UInt8}

/-- A handler that reads the body of a request as JSON: it looks at the length and at what is
parsed, a number is as good as any other, and it answers that a body is no JSON when it is
none, and only then. -/
structure ReadsJson (P : CJsonParser) (body : List UInt8) (handler : Request → Prog Served) :
    Prop where
  congr : ∀ {r r' : Request}, r.contentLen = r'.contentLen →
    (recvBody r).map P.parse = (recvBody r').map P.parse → handler r = handler r'
  number : ∀ {r r' : Request} {text text' : CStr} {q q' : ℚ}, r.contentLen = r'.contentLen →
    recvBody r = some text → recvBody r' = some text' → P.parse text = some (.number q) →
      P.parse text' = some (.number q') → handler r = handler r'
  reject : ∀ {r : Request} {text : CStr}, r.contentLen = body.length → body ≠ [] →
    recvBody r = some text → P.parse text = none → handler r = pure (sendErr 400 "Invalid JSON")
  accept : ∀ {r : Request} {text : CStr} {root : CJson}, r.contentLen = body.length → body ≠ [] →
    recvBody r = some text → P.parse text = some root →
      ∀ fs s, ((handler r).run nvs fs s).value ≠ sendErr 400 "Invalid JSON"

theorem apiConfigPostHandler_readsJson (hlen : body.length < 1024) (c₀ : RepeaterConfig) :
    ReadsJson P body fun req => apiConfigPostHandler P req c₀ where
  congr hr hparse := apiConfigPostHandler_congr hr hparse c₀
  number {r r' text text' q q'} hr htext htext' hparse hparse' := by
    unfold apiConfigPostHandler postAndSave
    rw [hr, htext, htext']
    simp only [hparse, hparse']
    have hnone : Posted.of (.number q) = Posted.of (.number q') := rfl
    rw [mergeAndSave_congr hnone]
  reject {r text} hr _ htext hparse :=
    apiConfigPostHandler_reject (hr ▸ hlen) htext hparse c₀
  accept {r text root} hr _ htext hparse :=
    apiConfigPostHandler_ne (hr ▸ hlen) htext hparse c₀

theorem apiAuthHandler_readsJson (hlen : body.length < 256) :
    ReadsJson P body (apiAuthHandler P .post) where
  congr hr hparse := apiAuthHandler_congr hr hparse .post
  number {r r' text text' q q'} hr htext htext' hparse hparse' := by
    unfold apiAuthHandler
    rw [hr, htext, htext']
    simp only [hparse, hparse']
    rfl
  reject {r text} hr hne htext hparse := by
    have hpos := List.length_pos_iff.mpr hne
    exact apiAuthHandler_reject (by omega) (by omega) htext hparse
  accept {r text root} hr hne htext hparse := by
    have hpos := List.length_pos_iff.mpr hne
    exact apiAuthHandler_ne (by omega) (by omega) htext hparse

/-- **With cJSON**, such a handler does with the pieces what it does with the whole exactly
when both are accepted or neither is. -/
theorem ReadsJson.sameAsWhole_iff {D : Doubles} {fresh : (n : ℕ) → Buf n}
    {handler : Request → Prog Served} (hreads : ReadsJson (cJsonParser D fresh) body handler)
    (h : Splits segments body) :
    SameAsWhole handler body segments ↔
      (((cJsonParser D fresh).parse (.ofMem (firstPiece segments))).isSome ↔
        ((cJsonParser D fresh).parse (.ofMem body)).isSome) := by
  have hlen : (Request.inPieces body segments).contentLen = (Request.whole body).contentLen := rfl
  by_cases hnil : body = []
  · -- nothing is received, and nothing parsed
    have hpiece := (firstPiece_eq_nil_iff h).mpr hnil
    refine iff_of_true (sameAsWhole_of_eq (hreads.congr hlen (parse_inPieces h _ ?_))) ?_
    · rw [hpiece, hnil]
    · rw [hpiece, hnil]
  have hwhole : recvBody (.whole body) = some (.ofMem body) := recvBody_whole hnil
  have hpieces : recvBody (.inPieces body segments) = some (.ofMem (firstPiece segments)) := by
    rw [recvBody_inPieces h, recvBody_whole (mt (firstPiece_eq_nil_iff h).mp hnil)]
  -- the text of the first piece is a front of the body's
  have hfront := ofMem_firstPiece_isPart h
  rcases hpiece : (cJsonParser D fresh).parse (.ofMem (firstPiece segments)) with _ | root
  · rcases hbody : (cJsonParser D fresh).parse (.ofMem body) with _ | root'
    · exact iff_of_true (sameAsWhole_of_eq (hreads.congr hlen (parse_inPieces h _
        (hpiece.trans hbody.symm)))) Iff.rfl
    · refine iff_of_false (fun hsame => ?_) (by simp)
      have hval := (hsame [] none).1
      rw [hreads.reject rfl hnil hpieces hpiece] at hval
      exact hreads.accept rfl hnil hwhole hbody [] none hval.symm
  · rcases cJsonParser_front D fresh hfront hpiece with hbody | ⟨⟨q, rfl⟩, hnumber⟩
    · refine iff_of_true (sameAsWhole_of_eq (hreads.congr hlen (parse_inPieces h _
        (hpiece.trans hbody.symm)))) ?_
      rw [hbody]
    · rcases hbody : (cJsonParser D fresh).parse (.ofMem body) with _ | root'
      · refine iff_of_false (fun hsame => ?_) (by simp)
        have hval := (hsame [] none).1
        rw [hreads.reject rfl hnil hwhole hbody] at hval
        exact hreads.accept rfl hnil hpieces hpiece [] none hval
      · obtain ⟨q', rfl⟩ := hnumber root' hbody
        exact iff_of_true (sameAsWhole_of_eq (hreads.number hlen hpieces hwhole hpiece hbody))
          (by simp)

end Cjson

/-- **When the pieces make no difference**, for every body that the size checks let pass and
every way it is split: exactly when cJSON accepts what the first receive call returns, or
does not accept the whole body either. -/
theorem pieces_iff (D : Doubles) (fresh : (n : ℕ) → Buf n) (body : List UInt8)
    (segments : List (List UInt8)) (h : Splits segments body) :
    let P := cJsonParser D fresh
    let accepts : List UInt8 → Prop := fun bytes => (P.parse (.ofMem bytes)).isSome
    (body.length < 1024 → ∀ c₀,
      (SameAsWhole (fun req => apiConfigPostHandler P req c₀) body segments ↔
        (accepts (firstPiece segments) ↔ accepts body))) ∧
    (body.length < 256 → (SameAsWhole (apiAuthHandler P .post) body segments ↔
      (accepts (firstPiece segments) ↔ accepts body))) :=
  ⟨fun hlen c₀ => (apiConfigPostHandler_readsJson hlen c₀).sameAsWhole_iff h,
    fun hlen => (apiAuthHandler_readsJson hlen).sameAsWhole_iff h⟩

/-- The body that names the network `Home`, and the end of the line. -/
def linedBody : List UInt8 := homeText.bytes ++ [0x0a]

/-- The end of the line is not missed, neither in a configuration nor in a login. -/
theorem lined_body_same :
    let P := cJsonParser Json.wholeDoubles Buf.zero
    SameAsWhole (fun req => apiConfigPostHandler P req wifiConfigGetDefault) linedBody
        [homeText.bytes, [0x0a]] ∧
      SameAsWhole (apiAuthHandler P .post) linedBody [homeText.bytes, [0x0a]] := by
  have h := pieces_iff Json.wholeDoubles Buf.zero linedBody [homeText.bytes, [0x0a]]
    ⟨by decide, by decide⟩
  have haccepts : ((cJsonParser Json.wholeDoubles Buf.zero).parse
      (.ofMem (firstPiece [homeText.bytes, [0x0a]]))).isSome ↔
      ((cJsonParser Json.wholeDoubles Buf.zero).parse (.ofMem linedBody)).isSome := by
    decide +kernel
  exact ⟨(h.1 (by decide) _).mpr haccepts, (h.2 (by decide)).mpr haccepts⟩

/-- **A configuration in two pieces is refused**: the first ends in the middle of the
name, and is no JSON. -/
theorem split_body_rejected :
    let P := cJsonParser Json.wholeDoubles Buf.zero
    let pieces := [homeText.bytes.take 10, homeText.bytes.drop 10]
    Splits pieces homeText.bytes ∧
      ((apiConfigPostHandler P (.whole homeText.bytes) wifiConfigGetDefault).run nvs [] none).value
        = savedOk ∧
      ((apiConfigPostHandler P (.inPieces homeText.bytes pieces) wifiConfigGetDefault).run nvs []
        none).value = sendErr 400 "Invalid JSON" ∧
      ¬SameAsWhole (fun req => apiConfigPostHandler P req wifiConfigGetDefault) homeText.bytes
        pieces := by
  intro P pieces
  have hwhole : ((apiConfigPostHandler P (.whole homeText.bytes) wifiConfigGetDefault).run nvs []
      none).value = savedOk := by decide +kernel
  have hpieces : ((apiConfigPostHandler P (.inPieces homeText.bytes pieces)
      wifiConfigGetDefault).run nvs [] none).value = sendErr 400 "Invalid JSON" := by
    decide +kernel
  refine ⟨⟨by decide, by decide⟩, hwhole, hpieces, fun hsame => ?_⟩
  have hval := (hsame [] none).1
  simp only [hwhole, hpieces] at hval
  exact absurd hval (by decide)

end WifiRepeater
