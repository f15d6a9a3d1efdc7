import CryptoTrading.Lib.MessageHead

/-! # HTTP requests

How a server reads the text of a request: the request line by its blanks, the
fields line by line, and in the target the parameters behind the question mark. -/
set_option autoImplicit false

structure HttpRequest where
  method : List Char
  target : List Char
  version : List Char
  fields : List (List Char × List Char)
  body : List Char
  deriving DecidableEq, Repr

namespace HttpRequest

open TextSearch MessageHead

def lineEnd : List Char := ['\r', '\n']

def isBlank (char : Char) : Bool := char = ' ' ∨ char = '\t'

/-! ## Reading -/

def read (text : List Char) : Option HttpRequest := do
  let (lines, body) ← readLines lineEnd (text.length + 1) text
  match lines with
  | [] => none
  | requestLine :: fieldLines =>
      match requestLine.splitOn ' ' with
      | [method, target, version] =>
          let fields ← fieldLines.mapM (readField ':' isBlank)
          some
            { method := method, target := target, version := version, fields := fields
              body := body }
      | _ => none

def value (request : HttpRequest) (name : String) : Option (List Char) :=
  request.fields.lookup name.toList

def readParameter (text : List Char) : List Char × List Char :=
  (text.takeWhile (· ≠ '='), (text.dropWhile (· ≠ '=')).tail)

def readTarget (target : List Char) : List Char × List (List Char × List Char) :=
  (target.takeWhile (· ≠ '?'),
    match target.dropWhile (· ≠ '?') with
    | [] => []
    | _ :: query => (query.splitOn '&').map readParameter)

/-! ## Writing -/

def requestLine (request : HttpRequest) : List Char :=
  request.method ++ ' ' :: (request.target ++ ' ' :: request.version)

def fieldLine (field : List Char × List Char) : List Char := field.1 ++ ':' :: ' ' :: field.2

def text (request : HttpRequest) : List Char :=
  headText lineEnd (request.requestLine :: request.fields.map fieldLine) ++ request.body

def parameterText (parameter : List Char × List Char) : List Char :=
  parameter.1 ++ '=' :: parameter.2

def targetText (resource : List Char) (parameters : List (List Char × List Char)) : List Char :=
  if parameters = [] then resource
  else resource ++ '?' :: ['&'].intercalate (parameters.map parameterText)

def Part (text : List Char) : Prop := ' ' ∉ text ∧ '\r' ∉ text

/-- A request that is read as it is meant. -/
structure WellFormed (request : HttpRequest) : Prop where
  method : Part request.method
  target : Part request.target
  version : Part request.version
  names : ∀ field ∈ request.fields, ':' ∉ field.1 ∧ '\r' ∉ field.1
  values : ∀ field ∈ request.fields, Clean lineEnd isBlank field.2

section RoundTrip
variable {request : HttpRequest}

theorem clear_of_notMem {text : List Char} (noReturn : '\r' ∉ text) : ¬ lineEnd <:+: text :=
  fun inside => noReturn (inside.subset List.mem_cons_self)

theorem clear_requestLine (wellFormed : request.WellFormed) :
    ¬ lineEnd <:+: request.requestLine := by
  refine clear_of_notMem ?_
  rw [requestLine]
  simp [wellFormed.method.2, wellFormed.target.2, wellFormed.version.2]

theorem clear_fieldLine {field : List Char × List Char} (noReturn : '\r' ∉ field.1)
    (clean : Clean lineEnd isBlank field.2) : ¬ lineEnd <:+: fieldLine field := by
  rw [fieldLine, infix_mark_iff (by decide) (by decide), List.infix_cons_iff]
  rintro (inName | front | inValue)
  · exact clear_of_notMem noReturn inName
  · exact absurd (List.cons_prefix_cons.mp front).1 (by decide)
  · exact clean.noLineEnd inValue

theorem mapM_fieldLine {fields : List (List Char × List Char)}
    (names : ∀ field ∈ fields, ':' ∉ field.1 ∧ '\r' ∉ field.1)
    (values : ∀ field ∈ fields, Clean lineEnd isBlank field.2) :
    (fields.map fieldLine).mapM (readField ':' isBlank) = some fields := by
  induction fields with
  | nil => rfl
  | cons field rest ih =>
      have clean := values field List.mem_cons_self
      have here : readField ':' isBlank (fieldLine field) = some field :=
        readField_written (by decide) (names field List.mem_cons_self).1 clean.noBlankFront
          clean.noBlankBack
      rw [List.map_cons, List.mapM_cons, here,
        ih (fun other member => names other (List.mem_cons_of_mem _ member))
          (fun other member => values other (List.mem_cons_of_mem _ member))]
      rfl

/-- The text of a request is read as the request. -/
theorem read_text (wellFormed : request.WellFormed) : read request.text = some request := by
  have lines : ∀ line ∈ request.requestLine :: request.fields.map fieldLine,
      line ≠ [] ∧ EndsAtFirst lineEnd line := by
    intro line member
    rcases List.mem_cons.mp member with rfl | inFields
    · refine ⟨by simp [requestLine], endsAtFirst_pair (by decide) (clear_requestLine wellFormed)⟩
    · obtain ⟨field, inRequest, rfl⟩ := List.mem_map.mp inFields
      refine ⟨by simp [fieldLine], endsAtFirst_pair (by decide) ?_⟩
      exact clear_fieldLine (wellFormed.names field inRequest).2
        (wellFormed.values field inRequest)
  have enough : (request.requestLine :: request.fields.map fieldLine).length <
      request.text.length + 1 := by
    rw [text, headText, List.length_append, List.length_append, List.length_flatMap]
    have each : ∀ lines : List (List Char),
        lines.length ≤ (lines.map fun line => (line ++ lineEnd).length).sum := by
      intro lines
      induction lines with
      | nil => exact Nat.le_refl _
      | cons line rest ih =>
          rw [List.map_cons, List.sum_cons, List.length_append, List.length_cons]
          have two : lineEnd.length = 2 := rfl
          omega
    have counted := each (request.requestLine :: request.fields.map fieldLine)
    omega
  have split : request.requestLine.splitOn ' ' =
      [request.method, request.target, request.version] := by
    have parts : ∀ part ∈ [request.method, request.target, request.version], ' ' ∉ part := by
      simp [wellFormed.method.1, wellFormed.target.1, wellFormed.version.1]
    rw [← List.splitOn_intercalate ' ' parts (List.cons_ne_nil _ _)]
    simp [requestLine, List.intercalate]
  have fields := mapM_fieldLine wellFormed.names wellFormed.values
  rw [read, text, readLines_headText (by decide) lines _ (by rw [← text]; exact enough)]
  dsimp only [bind, Option.bind]
  rw [split]
  dsimp only
  rw [fields]

end RoundTrip

theorem mem_of_mapM {fieldLines : List (List Char)} : ∀ {fields : List (List Char × List Char)},
    fieldLines.mapM (readField ':' isBlank) = some fields → ∀ field ∈ fields,
      ∃ line ∈ fieldLines, readField ':' isBlank line = some field := by
  induction fieldLines with
  | nil =>
      intro fields ran field member
      cases ran
      cases member
  | cons line rest ih =>
      intro fields ran field member
      rw [List.mapM_cons] at ran
      obtain ⟨first, readFirst, ran⟩ := Option.bind_eq_some_iff.mp ran
      obtain ⟨others, readOthers, same⟩ := Option.bind_eq_some_iff.mp ran
      cases same
      rcases List.mem_cons.mp member with rfl | later
      · exact ⟨line, List.mem_cons_self, readFirst⟩
      · obtain ⟨other, inRest, readOther⟩ := ih readOthers field later
        exact ⟨other, List.mem_cons_of_mem _ inRest, readOther⟩

theorem clean_of_value {request : HttpRequest} {text found : List Char} {name : String}
    (ran : read text = some request) (valued : request.value name = some found) :
    Clean lineEnd isBlank found := by
  obtain ⟨⟨lines, body⟩, lined, ran⟩ := Option.bind_eq_some_iff.mp ran
  cases lines with
  | nil => cases ran
  | cons requestLine fieldLines =>
      dsimp only at ran
      split at ran
      · obtain ⟨fields, readAll, same⟩ := Option.bind_eq_some_iff.mp ran
        cases same
        have clear := clear_of_readLines (by decide) _ lined
        obtain ⟨front, behind, split, -⟩ := List.lookup_eq_some_iff.mp valued
        have member : (name.toList, found) ∈ fields := by
          rw [show fields = front ++ (name.toList, found) :: behind from split]
          simp
        obtain ⟨line, inLines, readLine⟩ := mem_of_mapM readAll _ member
        exact clean_of_readField (clear line (List.mem_cons_of_mem _ inLines)) readLine
      · cases ran

/-! ## Targets -/

section Target
variable {resource : List Char} {parameters : List (List Char × List Char)}

theorem readParameter_text {parameter : List Char × List Char} (noMark : '=' ∉ parameter.1) :
    readParameter (parameterText parameter) = parameter := by
  have passes : ∀ char ∈ parameter.1, decide (char ≠ '=') = true := by
    intro char member
    exact decide_eq_true fun same => noMark (same ▸ member)
  rw [readParameter, parameterText, List.takeWhile_append_of_pos passes,
    List.dropWhile_append_of_pos passes, List.takeWhile_cons_of_neg (by simp),
    List.dropWhile_cons_of_neg (by simp), List.append_nil, List.tail_cons]

theorem readTarget_text (noQuery : '?' ∉ resource)
    (names : ∀ parameter ∈ parameters, '=' ∉ parameter.1)
    (clear : ∀ parameter ∈ parameters, '&' ∉ parameterText parameter) :
    readTarget (targetText resource parameters) = (resource, parameters) := by
  have passes : ∀ char ∈ resource, decide (char ≠ '?') = true := by
    intro char member
    exact decide_eq_true fun same => noQuery (same ▸ member)
  have all : ∀ parameters : List (List Char × List Char),
      (∀ parameter ∈ parameters, '=' ∉ parameter.1) →
        (parameters.map parameterText).map readParameter = parameters := by
    intro parameters names
    rw [List.map_map]
    exact (List.map_congr_left fun parameter member =>
      readParameter_text (names parameter member)).trans (List.map_id' parameters)
  rw [readTarget, targetText]
  cases parameters with
  | nil =>
      rw [if_pos rfl, List.takeWhile_eq_self_iff.mpr passes, List.dropWhile_eq_nil_iff.mpr passes]
  | cons first rest =>
      rw [if_neg (List.cons_ne_nil _ _), List.takeWhile_append_of_pos passes,
        List.dropWhile_append_of_pos passes, List.takeWhile_cons_of_neg (by simp),
        List.dropWhile_cons_of_neg (by simp), List.append_nil]
      dsimp only
      rw [List.splitOn_intercalate '&' ?_ (by simp), all _ names]
      intro text member
      obtain ⟨parameter, inParameters, rfl⟩ := List.mem_map.mp member
      exact clear parameter inParameters

theorem mem_targetText {char : Char} (member : char ∈ targetText resource parameters) :
    char ∈ resource ∨ char = '?' ∨ char = '&' ∨ char = '=' ∨
      ∃ parameter ∈ parameters, char ∈ parameter.1 ∨ char ∈ parameter.2 := by
  have inside : ∀ texts : List (List Char), char ∈ ['&'].intercalate texts →
      char = '&' ∨ ∃ text ∈ texts, char ∈ text := by
    intro texts joined
    induction texts with
    | nil => cases joined
    | cons first rest ih =>
        cases rest with
        | nil => exact .inr ⟨first, List.mem_singleton_self _, by simpa using joined⟩
        | cons second more =>
            rw [List.intercalate_cons_cons, List.mem_append, List.mem_append] at joined
            rcases joined with (inFirst | separator) | later
            · exact .inr ⟨first, List.mem_cons_self, inFirst⟩
            · exact .inl (List.mem_singleton.mp separator)
            · obtain same | ⟨text, inRest, here⟩ := ih later
              · exact .inl same
              · exact .inr ⟨text, List.mem_cons_of_mem _ inRest, here⟩
  rw [targetText] at member
  split at member
  · exact .inl member
  · rcases List.mem_append.mp member with inResource | behind
    · exact .inl inResource
    rcases List.mem_cons.mp behind with mark | joined
    · exact .inr (.inl mark)
    obtain same | ⟨text, inTexts, here⟩ := inside _ joined
    · exact .inr (.inr (.inl same))
    obtain ⟨parameter, inParameters, rfl⟩ := List.mem_map.mp inTexts
    rw [parameterText, List.mem_append, List.mem_cons] at here
    rcases here with inName | equals | inValue
    · exact .inr (.inr (.inr (.inr ⟨parameter, inParameters, .inl inName⟩)))
    · exact .inr (.inr (.inr (.inl equals)))
    · exact .inr (.inr (.inr (.inr ⟨parameter, inParameters, .inr inValue⟩)))

end Target

end HttpRequest
