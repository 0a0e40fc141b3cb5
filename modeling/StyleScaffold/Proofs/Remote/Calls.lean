import StyleScaffold.Command.Run
import StyleScaffold.Proofs.Design.Reading

/-!
# Calls and their faults

A call to the design service has a result, or it fails; and the faults of the service are the ones
that a program tells its user. Timeouts, lost connections, bad statuses and bodies that are no JSON
are among them (`isReported_fetch_iff`). A body that is JSON of another shape is not, and neither is
one that is nested too deeply to be read. All this holds however addresses are found.

* `not_isReported_calls`: an array where a file is asked for.
* `isReported_calls_iff`: the shapes that each call takes, and that the program crashes on the
  others.
-/

namespace StyleScaffold.Remote

open Text Json Design

/-- There is a result or a fault of the service. -/
def IsReported {α : Type} (r : Except CallFault α) : Prop :=
  (∃ a, r = .ok a) ∨ ∃ f, r = .error (.service f)

theorem isReported_ok {α : Type} (a : α) : IsReported (.ok a) := Or.inl ⟨a, rfl⟩

theorem isReported_error_iff {α : Type} {fault : CallFault} :
    IsReported (.error fault : Except CallFault α) ↔ ∃ f, fault = .service f := by
  simp [IsReported]

instance {α : Type} (r : Except CallFault α) : Decidable (IsReported r) :=
  match r with
  | .ok a => isTrue (isReported_ok a)
  | .error (.service f) => isTrue (Or.inr ⟨f, rfl⟩)
  | .error (.data _) | .error (.address _) | .error .tooDeep | .error .closed =>
    isFalse (by simp [IsReported])

theorem isReported_ofData_iff {α : Type} {r : Except DataFault α} :
    IsReported (r.mapError .data) ↔ ∃ a, r = .ok a := by
  simp [IsReported, mapError_eq_ok, mapError_eq_error]

namespace Session

variable {α β : Type} {s : Session} {endpoint : Text} {parameters : Option (List (Text × Text))}
  {nesting : Nat} {d : Destination} {r : Reply}

/-- What a call gives in a session. -/
def result (c : Call α) (s : Session) : Except CallFault α := (c.run.run s).1

/-- The session behind a call. -/
def after (c : Call α) (s : Session) : Session := (c.run.run s).2

/-! ## Steps of a call -/

theorem result_bind (c : Call α) (f : α → Call β) (s : Session) :
    result (c >>= f) s = result c s >>= fun a => result (f a) (after c s) := by
  unfold result after
  rw [ExceptT.run_bind, StateT.run_bind]
  obtain ⟨a | fault, t⟩ := c.run.run s
  · rfl
  · rfl

theorem result_get_bind (f : Session → Call α) (s : Session) :
    result (do f (← get)) s = result (f s) s := rfl

theorem result_ofData (r : Except DataFault α) (s : Session) :
    result (ofData r) s = r.mapError .data := by
  cases r <;> rfl

theorem isReported_bind_iff {c : Call α} {f : α → Call β} :
    IsReported (result (c >>= f) s) ↔ IsReported (result c s) ∧
      ∀ a, result c s = .ok a → IsReported (result (f a) (after c s)) := by
  rw [result_bind]
  cases result c s with
  | ok a => simp [bind, Except.bind, isReported_ok]
  | error fault => simp [bind, Except.bind, isReported_error_iff]

/-- The reply to the next request. -/
def reply (s : Session) : Reply := s.replies.headD noReply

theorem result_fetch_of_fault {e : AddressFault} (h : s.locate endpoint parameters = .error e) :
    result (fetch endpoint parameters) s = .error (.address e) := by
  rw [fetch, result_get_bind, h]
  rfl

theorem result_fetch_of_address (hOpen : s.isOpen = true)
    (h : s.locate endpoint parameters = .ok d) :
    result (fetch endpoint parameters) s = (readReply s.nesting d s.reply).2 := by
  rw [fetch, result_get_bind, h, reply]
  dsimp only
  rw [if_pos hOpen]
  obtain ⟨answer, fault | v⟩ := readReply s.nesting d (s.replies.headD noReply)
  · rfl
  · rfl

/-! ## Answers -/

/-- What an endpoint asks for has an address, and an answer that comes from there counts. -/
def HasAddress (s : Session) (endpoint : Text) (parameters : Option (List (Text × Text))) : Prop :=
  ∃ d, s.locate endpoint parameters = .ok d ∧
    (d.isNamed = true ∨ ∀ status body, s.reply ≠ .answer status body)

/-- A body that is looked at is not nested too deeply. -/
def FitsNesting (s : Session) : Prop :=
  ∀ status body, s.reply = .answer status body → status < 300 →
    Json.ofMessage s.nesting body ≠ .error .tooDeep

/-- The answer is a value. -/
def Receives (s : Session) (endpoint : Text) (parameters : Option (List (Text × Text))) (v : Json) :
    Prop :=
  ∃ d status body, s.locate endpoint parameters = .ok d ∧ d.isNamed = true ∧
    s.reply = .answer status body ∧ status < 300 ∧ Json.ofMessage s.nesting body = .ok v

/-- An answer from an address that counts. -/
theorem readReply_answer (hNamed : d.isNamed = true) (status : Int) (body : List UInt8) :
    (readReply nesting d (.answer status body)).2 =
      if 300 ≤ status then .error (.service (.refused status))
      else
        match Json.ofMessage nesting body with
        | .ok v => .ok v
        | .error .malformed => .error (.service (.notJson status))
        | .error .tooDeep => .error .tooDeep := by
  rw [readReply, hNamed]
  rfl

theorem readReply_unnamed (hNamed : ¬ d.isNamed = true) (status : Int) (body : List UInt8) :
    (readReply nesting d (.answer status body)).2 = .error (.address .schemeless) := by
  rw [readReply, eq_false_of_ne_true hNamed]
  rfl

theorem isReported_readReply_iff :
    IsReported (readReply nesting d r).2 ↔
      (d.isNamed = true ∨ ∀ status body, r ≠ .answer status body) ∧
        ∀ status body, r = .answer status body → status < 300 →
          Json.ofMessage nesting body ≠ .error .tooDeep := by
  cases r with
  | timedOut reason | unreachable reason => simp [readReply, isReported_error_iff]
  | answer status body =>
    have hForall : (∀ status' body', Reply.answer status body = .answer status' body' →
        status' < 300 → Json.ofMessage nesting body' ≠ .error .tooDeep) ↔
          (status < 300 → Json.ofMessage nesting body ≠ .error .tooDeep) := by
      refine ⟨fun h => h status body rfl, fun h _ _ hEq => ?_⟩
      cases hEq
      exact h
    rw [hForall]
    by_cases hNamed : d.isNamed = true
    · rw [readReply_answer hNamed, and_iff_right (Or.inl hNamed)]
      split
      · rename_i hStatus
        refine iff_of_true (isReported_error_iff.2 ⟨_, rfl⟩) fun hLess => ?_
        exact absurd hStatus (Int.not_le.2 hLess)
      · rename_i hStatus
        rw [forall_prop_of_true (Int.not_le.1 hStatus)]
        rcases Json.ofMessage nesting body with (_ | _) | v
        · exact iff_of_true (isReported_error_iff.2 ⟨_, rfl⟩) (by simp)
        · exact iff_of_false (by simp [isReported_error_iff]) (by simp)
        · exact iff_of_true (isReported_ok v) (by simp)
    · simp [readReply_unnamed hNamed, hNamed, isReported_error_iff]

theorem readReply_eq_ok_iff {v : Json} :
    (readReply nesting d r).2 = .ok v ↔ ∃ status body, d.isNamed = true ∧
      r = .answer status body ∧ status < 300 ∧ Json.ofMessage nesting body = .ok v := by
  constructor
  · intro h
    cases r with
    | timedOut reason | unreachable reason => cases h
    | answer status body =>
      by_cases hNamed : d.isNamed = true
      · rw [readReply_answer hNamed] at h
        split at h
        · cases h
        · rename_i hStatus
          split at h
          · rename_i w hBody
            cases h
            exact ⟨status, body, hNamed, rfl, Int.not_le.1 hStatus, hBody⟩
          · cases h
          · cases h
      · rw [readReply_unnamed hNamed] at h
        cases h
  · rintro ⟨status, body, hNamed, rfl, hStatus, hBody⟩
    rw [readReply_answer hNamed, if_neg (Int.not_le.2 hStatus), hBody]

theorem isReported_fetch_iff (hOpen : s.isOpen = true) :
    IsReported (result (fetch endpoint parameters) s) ↔
      s.HasAddress endpoint parameters ∧ s.FitsNesting := by
  unfold HasAddress FitsNesting
  cases hLocate : s.locate endpoint parameters with
  | error e =>
    rw [result_fetch_of_fault hLocate]
    simp [isReported_error_iff]
  | ok d =>
    rw [result_fetch_of_address hOpen hLocate, isReported_readReply_iff]
    simp

theorem result_fetch_eq_ok_iff (hOpen : s.isOpen = true) {v : Json} :
    result (fetch endpoint parameters) s = .ok v ↔ s.Receives endpoint parameters v := by
  unfold Receives
  cases hLocate : s.locate endpoint parameters with
  | error e =>
    rw [result_fetch_of_fault hLocate]
    simp
  | ok d =>
    rw [result_fetch_of_address hOpen hLocate, readReply_eq_ok_iff]
    simp

/-! ## Calls -/

/-- A call that fetches a value and reads it as data. -/
theorem isReported_fetch_bind_iff (hOpen : s.isOpen = true) {f : Json → Call α} {P : Json → Prop}
    (h : ∀ v t, IsReported (result (f v) t) ↔ P v) :
    IsReported (result (fetch endpoint parameters >>= f) s) ↔
      s.HasAddress endpoint parameters ∧ s.FitsNesting ∧
        ∀ v, s.Receives endpoint parameters v → P v := by
  rw [isReported_bind_iff, isReported_fetch_iff hOpen, and_assoc]
  simp only [result_fetch_eq_ok_iff hOpen, h]

theorem isReported_getFile_iff (hOpen : s.isOpen = true) (fileKey : Text) :
    IsReported (result (getFile fileKey) s) ↔
      s.HasAddress (filePath fileKey) none ∧ s.FitsNesting ∧
        ∀ v, s.Receives (filePath fileKey) none v → IsFile v :=
  isReported_fetch_bind_iff hOpen fun v t => by
    rw [result_ofData, isReported_ofData_iff, DesignFile.exists_ofJson_iff]

/-- An entry that counts as missing, an object without a document, or one with a node. -/
def IsEntry (v : Json) : Prop :=
  v.truthy = true → ∃ fields, v = .obj fields ∧
    ((fieldOrNull fields "document").truthy = true → IsNode (fieldOrNull fields "document"))

def IsNodes (v : Json) : Prop :=
  ∃ fields, v = .obj fields ∧ ((fieldOrNull fields "nodes").truthy = true →
    ∃ inner, fieldOrNull fields "nodes" = .obj inner ∧ ∀ entry ∈ inner, IsEntry entry.2)

/-- An object that says why there are no images, or has a map of them. -/
def IsImages (v : Json) : Prop :=
  ∃ fields, v = .obj fields ∧ ((fieldOrNull fields "err").truthy = true ∨ HasMap fields "images")

theorem exists_nodesOf_iff {entries : List (Text × Json)} :
    (∃ ns, nodesOf entries = .ok ns) ↔ ∀ entry ∈ entries, IsEntry entry.2 := by
  induction entries with
  | nil => exact iff_of_true ⟨[], rfl⟩ (by simp)
  | cons entry rest ih =>
    obtain ⟨id, v⟩ := entry
    rw [nodesOf, List.forall_mem_cons, IsEntry, ← ih]
    split
    · rename_i hTruthy
      rw [forall_prop_of_true hTruthy, exists_fields?_bind_iff, ← exists_and_right]
      refine exists_congr fun fields => ?_
      rw [and_assoc]
      refine and_congr_right fun _ => ?_
      dsimp only
      split
      · rename_i hDocument
        rw [exists_bind_iff fun _ => exists_bind_iff fun _ => exists_pure_iff, and_true,
          Node.exists_ofJson_iff, forall_prop_of_true hDocument]
      · rename_i hDocument
        exact (and_iff_right fun h => absurd h hDocument).symm
    · rename_i hTruthy
      exact (and_iff_right fun h => absurd h hTruthy).symm

theorem exists_nodesOf_innerFields_iff {v : Json} :
    (∃ ns, innerFields v "nodes" >>= nodesOf = .ok ns) ↔ IsNodes v := by
  unfold innerFields
  rw [bind_assoc, exists_fields?_bind_iff]
  refine exists_congr fun fields => and_congr_right fun _ => ?_
  dsimp only
  rw [apply_ite fun inner => inner >>= nodesOf]
  refine exists_ite_iff (fun _ => ?_) fun _ => ⟨_, rfl⟩
  rw [exists_fields?_bind_iff]
  exact exists_congr fun inner => and_congr_right fun _ => exists_nodesOf_iff

theorem isReported_getNodes_iff (hOpen : s.isOpen = true) (fileKey : Text) (ids : List Text) :
    IsReported (result (getNodes fileKey ids) s) ↔
      s.HasAddress (filePath fileKey ++ "/nodes") (some [("ids", join [','] ids)]) ∧
        s.FitsNesting ∧
        ∀ v, s.Receives (filePath fileKey ++ "/nodes") (some [("ids", join [','] ids)]) v →
          IsNodes v :=
  isReported_fetch_bind_iff hOpen fun v t => by
    rw [result_ofData, isReported_ofData_iff, ← bind_assoc,
      exists_bind_iff fun _ => exists_pure_iff, and_true, exists_nodesOf_innerFields_iff]

/-- The parameters of a request for images. -/
def imageParameters (ids : List Text) (format scale : Json) : List (Text × Text) :=
  ("ids", join [','] ids) :: (parametersOf "format" format ++ parametersOf "scale" scale)

theorem isReported_images_iff (fields : List (Text × Json)) (t : Session) :
    IsReported (result (do
      let reason := fieldOrNull fields "err"
      if reason.truthy then throw (.service (.notRendered reason))
      ofData (DesignFile.mapOf fields "images")) t) ↔
        (fieldOrNull fields "err").truthy = true ∨ HasMap fields "images" := by
  dsimp only
  split
  · rename_i hReason
    exact iff_of_true (Or.inr ⟨_, rfl⟩) (Or.inl hReason)
  · rename_i hReason
    rw [result_ofData, isReported_ofData_iff, DesignFile.exists_mapOf_iff, or_iff_right hReason]

theorem isReported_getImages_iff (hOpen : s.isOpen = true) (fileKey : Text) (ids : List Text)
    (format scale : Json) :
    IsReported (result (getImages fileKey ids format scale) s) ↔
      s.HasAddress ("/images/" ++ fileKey) (some (imageParameters ids format scale)) ∧
        s.FitsNesting ∧
        ∀ v, s.Receives ("/images/" ++ fileKey) (some (imageParameters ids format scale)) v →
          IsImages v :=
  isReported_fetch_bind_iff hOpen fun v t => by
    rw [isReported_bind_iff, result_ofData, isReported_ofData_iff]
    simp only [mapError_eq_ok, fields?_eq_ok]
    constructor
    · rintro ⟨⟨fields, rfl⟩, hImages⟩
      exact ⟨fields, rfl, (isReported_images_iff fields _).1 (hImages fields rfl)⟩
    · rintro ⟨fields, rfl, hImages⟩
      refine ⟨⟨fields, rfl⟩, fun others hOthers => ?_⟩
      cases hOthers
      exact (isReported_images_iff fields _).2 hImages

end Session

/-! ## Crashes of the program -/

open Command Session

/-- The program ends without a word to its user. -/
def Crashes {α : Type} (r : Except Stop α) : Prop := ∃ cause, r = .error (.crash cause)

theorem crashes_callStop_iff {α : Type} {r : Except CallFault α} :
    Crashes (r.mapError callStop) ↔ ¬ IsReported r := by
  simp only [Crashes, mapError_eq_error]
  cases r with
  | ok a => simp [isReported_ok]
  | error fault => cases fault <;> simp [callStop, isReported_error_iff]

theorem crashes_calling_bind_iff {α β : Type} {c : Call α} {f : α → DesignCall β} {s : Session} :
    Crashes ((calling c >>= f).run.run s).1 ↔ ¬ IsReported (result c s) ∨
      ∃ a, result c s = .ok a ∧ Crashes ((f a).run.run (after c s)).1 := by
  have hCall : (calling c).run.run s = ((result c s).mapError callStop, after c s) := rfl
  rw [ExceptT.run_bind, StateT.run_bind, hCall, ← crashes_callStop_iff]
  cases result c s with
  | ok a =>
    rw [or_iff_right (by rintro ⟨cause, hCause⟩; cases hCause)]
    constructor
    · intro h
      exact ⟨a, rfl, h⟩
    · rintro ⟨_, hResult, h⟩
      cases hResult
      exact h
  | error fault =>
    rw [or_iff_left (by rintro ⟨a, hResult, -⟩; cases hResult)]
    constructor
    · rintro ⟨cause, hCause⟩
      exact ⟨cause, congrArg _ (Except.error.inj hCause)⟩
    · rintro ⟨cause, hCause⟩
      exact ⟨cause, congrArg _ (Except.error.inj hCause)⟩

/-- The program crashes on a call that is not reported, and on nothing else that it fetches. -/
theorem crashes_fetchDesign_iff (link : Link) (s : Session) :
    Crashes ((fetchDesign link).run.run s).1 ↔ ¬ IsReported (result (getFile link.fileKey) s) ∨
      ∃ file, result (getFile link.fileKey) s = .ok file ∧ ∃ id, link.nodeId = some id ∧
        ¬ IsReported (result (getNodes link.fileKey [id]) (after (getFile link.fileKey) s)) := by
  rw [fetchDesign, crashes_calling_bind_iff]
  refine or_congr_right (exists_congr fun file => and_congr_right fun _ => ?_)
  cases link.nodeId with
  | none =>
    refine iff_of_false ?_ ?_
    · rintro ⟨cause, hCause⟩
      cases hCause
    · rintro ⟨id, hId, -⟩
      cases hId
  | some id =>
    dsimp only
    rw [crashes_calling_bind_iff, or_iff_left]
    · constructor
      · intro h
        exact ⟨id, rfl, h⟩
      · rintro ⟨_, hId, h⟩
        cases hId
        exact h
    · -- a node that the service does not know is told to the user
      rintro ⟨nodes, -, cause, hCause⟩
      split at hCause <;> cases hCause

/-! ## All calls -/

/-- Where the endpoints of the service are. -/
def publicEndpoint : Locator := fun endpoint parameters => .ok
  { host := "api.figma.com"
    path := "/v1" ++ endpoint
    parameters := parameters.getD []
    address := "https://api.figma.com/v1" ++ endpoint
    isNamed := true }

/-- A session with the service, which answers with this text. -/
def answering (body : Text) : Session where
  locate := publicEndpoint
  token := "t"
  replies := [.answer 200 (encode body)]

/-- An array is no file. -/
theorem not_isReported_calls :
    ¬ ∀ (s : Session), s.isOpen = true → ∀ (fileKey : Text) (ids : List Text) (format scale : Json),
      IsReported (result (getFile fileKey) s) ∧ IsReported (result (getNodes fileKey ids) s) ∧
        IsReported (result (getImages fileKey ids format scale) s) := by
  intro h
  exact absurd (h (answering "[]") rfl "K" [] (.str "svg") (.int 1)).1 (by decide +kernel)

/-- The calls in an open session are reported where what is wanted has an address, where the answer
is not nested too deeply, and where the value that is received, if any, has the shape that the call
asks for. Where a program fetches a
design, it crashes on the calls that are not reported and on no others. -/
theorem isReported_calls_iff {s : Session} (hOpen : s.isOpen = true) :
    (∀ fileKey, IsReported (result (getFile fileKey) s) ↔
      s.HasAddress (filePath fileKey) none ∧ s.FitsNesting ∧
        ∀ v, s.Receives (filePath fileKey) none v → IsFile v) ∧
    (∀ fileKey ids, IsReported (result (getNodes fileKey ids) s) ↔
      s.HasAddress (filePath fileKey ++ "/nodes") (some [("ids", join [','] ids)]) ∧
        s.FitsNesting ∧
        ∀ v, s.Receives (filePath fileKey ++ "/nodes") (some [("ids", join [','] ids)]) v →
          IsNodes v) ∧
    (∀ fileKey ids format scale, IsReported (result (getImages fileKey ids format scale) s) ↔
      s.HasAddress ("/images/" ++ fileKey) (some (imageParameters ids format scale)) ∧
        s.FitsNesting ∧
        ∀ v, s.Receives ("/images/" ++ fileKey) (some (imageParameters ids format scale)) v →
          IsImages v) ∧
    ∀ link : Link, Crashes ((fetchDesign link).run.run s).1 ↔
      ¬ IsReported (result (getFile link.fileKey) s) ∨
        ∃ file, result (getFile link.fileKey) s = .ok file ∧ ∃ id, link.nodeId = some id ∧
          ¬ IsReported (result (getNodes link.fileKey [id]) (after (getFile link.fileKey) s)) :=
  ⟨isReported_getFile_iff hOpen, isReported_getNodes_iff hOpen, isReported_getImages_iff hOpen,
    fun link => crashes_fetchDesign_iff link s⟩

/-- A file that holds a frame with a fill. -/
def framedFile : Text :=
  "\x7b\"document\": \x7b\"type\": \"FRAME\", " ++
    "\"fills\": [\x7b\"color\": \x7b\"r\": 1\x7d\x7d]\x7d\x7d"

theorem isReported_calls_iff_framedFile :
    (answering framedFile).isOpen = true ∧
      (answering framedFile).HasAddress (filePath "K") none ∧
      (answering framedFile).FitsNesting ∧
      ∀ v, (answering framedFile).Receives (filePath "K") none v → IsFile v := by
  have hReported : IsReported (result (getFile "K") (answering framedFile)) := by decide +kernel
  exact ⟨rfl, ((isReported_calls_iff rfl).1 "K").1 hReported⟩

end StyleScaffold.Remote
