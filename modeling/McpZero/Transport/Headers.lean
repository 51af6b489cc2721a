import McpZero.Transport.Pool

/-! The headers of a connection, which its owner sends with every request. -/
namespace McpZero.Transport

/-- Assignment to a key of a dictionary of headers. -/
def setHeader (name value : String) : List (String × String) → List (String × String)
  | [] => [(name, value)]
  | (n, v) :: rest =>
    if n = name then (name, value) :: rest else (n, v) :: setHeader name value rest

theorem lookup_setHeader (name value : String) (headers : List (String × String)) :
    (setHeader name value headers).lookup name = some value := by
  induction headers with
  | nil => simp [setHeader]
  | cons header rest ih =>
    obtain ⟨n, v⟩ := header
    unfold setHeader
    split
    · simp
    · rename_i hne
      have hne' : (name == n) = false := by simpa using Ne.symm hne
      simp [List.lookup_cons, hne', ih]

/-- The headers that `_connection_owner` sends. A stdio server is a subprocess and gets none. -/
def connectionHeaders (config : ServerConfig) (g : GetSession) : List (String × String) :=
  match config.transport with
  | .stdio => []
  | .http | .sse =>
    let headers :=
      match g.context with
      | none => config.headers
      | some context =>
        let headers := setHeader "X-Correlation-ID" context.correlationId config.headers
        match context.traceId with
        | none => headers
        | some traceId => setHeader "X-Trace-ID" traceId headers
    match g.authToken with
    | none => headers
    | some token =>
      if token = "" then headers else setHeader "Authorization" ("Bearer " ++ token) headers

/-- The header that carries a token. -/
def authorization (config : ServerConfig) (g : GetSession) : Option String :=
  (connectionHeaders config g).lookup "Authorization"

theorem authorization_eq {config : ServerConfig} {g : GetSession} {token : String}
    (hremote : config.transport ≠ .stdio) (htoken : g.authToken = some token)
    (hne : token ≠ "") : authorization config g = some ("Bearer " ++ token) := by
  unfold authorization connectionHeaders
  cases htransport : config.transport with
  | stdio => exact absurd htransport hremote
  | http =>
    simp only [htoken, if_neg hne]
    exact lookup_setHeader _ _ _
  | sse =>
    simp only [htoken, if_neg hne]
    exact lookup_setHeader _ _ _

end McpZero.Transport
