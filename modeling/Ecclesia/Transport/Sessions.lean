import Ecclesia.Transport.HttpSession

namespace Ecclesia.Transport

open List

/-!
# Sessions are closed

The requests of a transport form one list.  A login that is granted a token and a location
opens a session there.  The session ends with the request that deletes its location.  The
requests between the two, and the last one, carry its token.
-/

/-! ## What is promised -/

/-- The token that a request carries. -/
def Exchange.token (exchange : Exchange) : Option Text :=
  exchange.request.headers.lookup kXAuthToken

/-- A login is answered with a token and a location. -/
structure Exchange.Grants (exchange : Exchange) (token location : Text) : Prop where
  login : exchange.origin = .login
  posts : exchange.method = .post
  answered : ∃ response, exchange.reply = .ok response ∧
    response.headers.lookup kXAuthToken = some token ∧
    response.headers.lookup kLocation = some location

/-- A session is opened by the request at this position. -/
structure Session (exchanges : List Exchange) (position : Nat) (token location : Text) : Prop where
  opened : ∃ exchange, exchanges[position]? = some exchange ∧ exchange.Grants token location
  hasToken : token ≠ []
  hasLocation : location ≠ []

/-- The session is closed by the request at the position `closed`, behind requests of the user. The
token of the login is carried by these requests and the last one, and by no other. -/
structure ClosedAt (exchanges : List Exchange) (position : Nat) (token location : Text)
    (closed : Nat) : Prop where
  later : position < closed
  closes : ∃ exchange, exchanges[closed]? = some exchange ∧ exchange.origin = .closing ∧
    exchange.method = .delete ∧ exchange.path = location
  between : ∀ (index : Nat) (exchange : Exchange), position < index -> index < closed ->
    exchanges[index]? = some exchange -> exchange.origin = .rest
  carried : ∀ (index : Nat) (exchange : Exchange), exchanges[index]? = some exchange ->
    (exchange.grantedBy = some position ↔ position < index ∧ index <= closed)
  sent : ∀ (index : Nat) (exchange : Exchange), exchanges[index]? = some exchange ->
    exchange.grantedBy = some position -> exchange.token = some token

def Closed (exchanges : List Exchange) (position : Nat) (token location : Text) : Prop :=
  ∃ closed, ClosedAt exchanges position token location closed ∧
    ∀ (index : Nat) (exchange : Exchange), exchanges[index]? = some exchange ->
      exchange.origin = .closing -> exchange.grantedBy = some position -> index = closed

/-- A request with a token names the login before it that granted the token. -/
def Provenance (exchanges : List Exchange) (index : Nat) (exchange : Exchange) : Prop :=
  match exchange.grantedBy with
  | none => exchange.token = none
  | some position => position < index ∧ ∃ opening token location,
      exchanges[position]? = some opening ∧ opening.Grants token location ∧
        exchange.token = some token

/-- A call of `DoSessionAuth` has returned the OK status. -/
def succeeds : Except Failure Status -> Bool
  | .ok status => status.isOk
  | .error _ => false

def LoginsFail {World : Type} (config : HttpConfig World) :
    List HttpCall -> HttpTransport World -> Prop
  | [], _ => True
  | .rest method path data :: calls, transport =>
    LoginsFail config calls (transport.call config (.rest method path data))
  | .doSessionAuth username password :: calls, transport =>
    succeeds (doSessionAuth config username password transport).1 = false ∧
      LoginsFail config calls (transport.call config (.doSessionAuth username password))

/-- The second state has sent more requests than the first, all without a token. -/
def Silent {World : Type} (before after : HttpTransport World) : Prop :=
  ∃ sent, after.exchanges = before.exchanges ++ sent ∧ ∀ exchange ∈ sent, exchange.token = none

/-! ## One more request -/

variable {index : Nat}

lemma getElem?_snoc {Item : Type} {items : List Item} {last item : Item} :
    (items ++ [last])[index]? = some item ↔
      items[index]? = some item ∨ (index = items.length ∧ item = last) := by
  rcases Nat.lt_trichotomy index items.length with before | at_ | behind
  · rw [getElem?_append_left before]
    constructor
    · exact .inl
    · rintro (found | ⟨isLength, -⟩)
      · exact found
      · omega
  · subst at_
    rw [getElem?_concat_length, getElem?_eq_none (le_rfl)]
    constructor
    · intro found
      exact .inr ⟨rfl, (Option.some.inj found).symm⟩
    · rintro (found | ⟨-, rfl⟩)
      · cases found
      · rfl
  · rw [getElem?_eq_none (by simp; omega), getElem?_eq_none (by omega)]
    constructor
    · intro found
      cases found
    · rintro (found | ⟨isLength, -⟩)
      · cases found
      · omega

lemma lt_of_getElem? {Item : Type} {items : List Item} {item : Item}
    (found : items[index]? = some item) : index < items.length :=
  (List.getElem?_eq_some_iff.mp found).1

variable {exchange : Exchange} {exchanges : List Exchange}

lemma Provenance.snoc (known : Provenance exchanges index exchange) (last : Exchange) :
    Provenance (exchanges ++ [last]) index exchange := by
  unfold Provenance at known ⊢
  cases grant : exchange.grantedBy with
  | none =>
    rw [grant] at known
    exact known
  | some position =>
    rw [grant] at known
    rcases known with ⟨later, opening, token, location, found, grants, carries⟩
    exact ⟨later, opening, token, location, getElem?_snoc.mpr (.inl found), grants, carries⟩

variable {token location : Text}

lemma Exchange.Grants.unique {token' location' : Text} (grants : exchange.Grants token location)
    (grants' : exchange.Grants token' location') : token = token' ∧ location = location' := by
  rcases grants.answered with ⟨response, answered, hasToken, hasLocation⟩
  rcases grants'.answered with ⟨response', answered', hasToken', hasLocation'⟩
  rw [answered] at answered'
  cases answered'
  rw [hasToken] at hasToken'
  rw [hasLocation] at hasLocation'
  exact ⟨Option.some.inj hasToken', Option.some.inj hasLocation'⟩

variable {exchanges : List Exchange} {position : Nat}

lemma Session.of_snoc {last : Exchange}
    (session : Session (exchanges ++ [last]) position token location) :
    Session exchanges position token location ∨
      (position = exchanges.length ∧ last.Grants token location) := by
  rcases session with ⟨⟨opening, found, grants⟩, hasToken, hasLocation⟩
  rcases getElem?_snoc.mp found with earlier | ⟨isLength, rfl⟩
  · exact .inl ⟨⟨opening, earlier, grants⟩, hasToken, hasLocation⟩
  · exact .inr ⟨isLength, grants⟩

lemma Closed.snoc {position : Nat} {token location : Text}
    (isClosed : Closed exchanges position token location)
    (other : exchange.grantedBy ≠ some position) :
    Closed (exchanges ++ [exchange]) position token location := by
  rcases isClosed with ⟨closed, ⟨later, ⟨closing, isClosing, closes⟩, between, carried, sent⟩, once⟩
  have inside := lt_of_getElem? isClosing
  refine ⟨closed, ⟨later, ⟨closing, getElem?_snoc.mpr (.inl isClosing), closes⟩, ?_, ?_, ?_⟩, ?_⟩
  · intro index one after before found
    rcases getElem?_snoc.mp found with earlier | ⟨isLength, -⟩
    · exact between index one after before earlier
    · omega
  · intro index one found
    rcases getElem?_snoc.mp found with earlier | ⟨isLength, rfl⟩
    · exact carried index one earlier
    · constructor
      · exact fun granted => absurd granted other
      · intro range
        omega
  · intro index one found granted
    rcases getElem?_snoc.mp found with earlier | ⟨-, rfl⟩
    · exact sent index one earlier granted
    · exact absurd granted other
  · intro index one found isClosingToo granted
    rcases getElem?_snoc.mp found with earlier | ⟨-, rfl⟩
    · exact once index one earlier isClosingToo granted
    · exact absurd granted other

/-! ## The session that is open -/

/-- The login at this position has opened a session, and requests of the user with its token
followed. -/
structure Open (exchanges : List Exchange) (position : Nat) (token location : Text) : Prop where
  opened : ∃ exchange, exchanges[position]? = some exchange ∧ exchange.Grants token location
  hasToken : token ≠ []
  since : ∀ (index : Nat) (exchange : Exchange), position < index ->
    exchanges[index]? = some exchange -> exchange.origin = .rest ∧
      exchange.grantedBy = some position ∧ exchange.token = some token

lemma Open.position_lt
    (isOpen : Open exchanges position token location) : position < exchanges.length := by
  rcases isOpen.opened with ⟨opening, found, -⟩
  exact lt_of_getElem? found

lemma Open.of_session {token' location' : Text} (isOpen : Open exchanges position token location)
    (session : Session exchanges position token' location') :
    token' = token ∧ location' = location := by
  rcases isOpen.opened with ⟨opening, found, grants⟩
  rcases session.opened with ⟨opening', found', grants'⟩
  have same : opening' = opening := Option.some.inj (found'.symm.trans found)
  subst same
  exact grants'.unique grants

lemma Open.snoc {position : Nat} {token location : Text}
    (isOpen : Open exchanges position token location) (isRest : exchange.origin = .rest)
    (granted : exchange.grantedBy = some position) (carries : exchange.token = some token) :
    Open (exchanges ++ [exchange]) position token location := by
  rcases isOpen.opened with ⟨opening, found, grants⟩
  refine ⟨⟨opening, getElem?_snoc.mpr (.inl found), grants⟩, isOpen.hasToken, ?_⟩
  intro index one after foundOne
  rcases getElem?_snoc.mp foundOne with earlier | ⟨-, rfl⟩
  · exact isOpen.since index one after earlier
  · exact ⟨isRest, granted, carries⟩

/-- The request that deletes the location closes the open session, whose token was sent since its
login. -/
lemma Open.close (isOpen : Open exchanges position token location)
    (known : ∀ (index : Nat) (exchange : Exchange), exchanges[index]? = some exchange ->
      Provenance exchanges index exchange) (isClosing : exchange.origin = .closing)
    (deletes : exchange.method = .delete) (path : exchange.path = location)
    (granted : exchange.grantedBy = some position) (carries : exchange.token = some token) :
    Closed (exchanges ++ [exchange]) position token location := by
  have behind : ∀ (index : Nat) (one : Exchange), exchanges[index]? = some one ->
      one.grantedBy = some position -> position < index := by
    intro index one found isGranted
    have origin := known index one found
    unfold Provenance at origin
    rw [isGranted] at origin
    exact origin.1
  have lastFound : (exchanges ++ [exchange])[exchanges.length]? = some exchange :=
    getElem?_snoc.mpr (.inr ⟨rfl, rfl⟩)
  refine ⟨exchanges.length, ⟨isOpen.position_lt,
    ⟨exchange, lastFound, isClosing, deletes, path⟩, ?_, ?_, ?_⟩, ?_⟩
  · intro index one after before found
    rcases getElem?_snoc.mp found with earlier | ⟨isLength, -⟩
    · exact (isOpen.since index one after earlier).1
    · omega
  · intro index one found
    rcases getElem?_snoc.mp found with earlier | ⟨isLength, rfl⟩
    · constructor
      · intro isGranted
        exact ⟨behind index one earlier isGranted, Nat.le_of_lt (lt_of_getElem? earlier)⟩
      · intro range
        exact (isOpen.since index one range.1 earlier).2.1
    · constructor
      · intro _
        exact ⟨isLength ▸ isOpen.position_lt, Nat.le_of_eq isLength⟩
      · exact fun _ => granted
  · intro index one found isGranted
    rcases getElem?_snoc.mp found with earlier | ⟨-, rfl⟩
    · exact (isOpen.since index one (behind index one earlier isGranted) earlier).2.2
    · exact carries
  · intro index one found isClosingToo isGranted
    rcases getElem?_snoc.mp found with earlier | ⟨isLength, -⟩
    · have isRest := (isOpen.since index one (behind index one earlier isGranted) earlier).1
      rw [isClosingToo] at isRest
      cases isRest
    · exact isLength

/-! ## The state of the transport -/

section

variable {World : Type} (config : HttpConfig World)

/-- What holds between two operations.  A session that the transport does not hold any more is
closed. -/
structure Tracked (transport : HttpTransport World) : Prop where
  known : ∀ (index : Nat) (exchange : Exchange),
    transport.exchanges[index]? = some exchange -> Provenance transport.exchanges index exchange
  logins : ∀ exchange ∈ transport.exchanges, exchange.origin = .login -> exchange.token = none
  withoutToken : transport.grantedBy = none -> transport.xAuthToken = []
  isOpen : ∀ position, transport.grantedBy = some position ->
    Open transport.exchanges position transport.xAuthToken transport.sessionAuthUri
  others : ∀ position token location,
    Session transport.exchanges position token location ->
      transport.grantedBy ≠ some position -> Closed transport.exchanges position token location

/-- The transport has no session, as before a login and when it has failed. -/
structure LoggedOut (transport : HttpTransport World) : Prop where
  token : transport.xAuthToken = []
  location : transport.sessionAuthUri = []
  grant : transport.grantedBy = none

/-- The request that is sent next. -/
def nextExchange (origin : Origin) (method : Method) (path data : Text)
    (transport : HttpTransport World) : Exchange where
  origin := origin
  method := method
  path := path
  request := makeRequest config.target transport.xAuthToken path data
  reply := (send config origin method path data transport).1
  grantedBy := transport.grantedBy

section

variable (origin : Origin) (method : Method) (path data : Text) (transport : HttpTransport World)

lemma send_exchanges :
    (send config origin method path data transport).2.exchanges =
      transport.exchanges ++ [nextExchange config origin method path data transport] := rfl

lemma nextExchange_token :
    (nextExchange config origin method path data transport).token =
      if transport.xAuthToken = [] then none else some transport.xAuthToken := by
  unfold Exchange.token nextExchange makeRequest
  cases config.target <;> cases transport.xAuthToken <;> simp

end

lemma Tracked.start (world : World) : Tracked (.start world) where
  known := by
    intro index exchange found
    simp [HttpTransport.start] at found
  logins := by
    intro exchange member
    simp [HttpTransport.start] at member
  withoutToken := fun _ => rfl
  isOpen := fun _ granted => nomatch granted
  others := by
    rintro position token location ⟨⟨opening, found, -⟩, -, -⟩
    simp [HttpTransport.start] at found

variable {transport : HttpTransport World} {position : Nat}

lemma Tracked.next_carries (tracked : Tracked transport)
    (granted : transport.grantedBy = some position) (origin : Origin) (method : Method)
    (path data : Text) :
    (nextExchange config origin method path data transport).token = some transport.xAuthToken := by
  rw [nextExchange_token, if_neg (tracked.isOpen position granted).hasToken]

lemma Tracked.next_provenance (tracked : Tracked transport) (origin : Origin) (method : Method)
    (path data : Text) :
    Provenance transport.exchanges transport.exchanges.length
      (nextExchange config origin method path data transport) := by
  cases granted : transport.grantedBy with
  | none =>
    have isNone : (nextExchange config origin method path data transport).grantedBy = none :=
      granted
    unfold Provenance
    rw [isNone]
    simp only [nextExchange_token, tracked.withoutToken granted, if_true]
  | some position =>
    have isSome : (nextExchange config origin method path data transport).grantedBy =
        some position := granted
    have isOpen := tracked.isOpen position granted
    rcases isOpen.opened with ⟨opening, found, grants⟩
    unfold Provenance
    rw [isSome]
    exact ⟨isOpen.position_lt, opening, transport.xAuthToken, transport.sessionAuthUri, found,
      grants, tracked.next_carries config granted origin method path data⟩

/-- Every request of the longer history has a token that was granted before. -/
lemma Tracked.known_snoc (tracked : Tracked transport)
    (origin : Origin) (method : Method) (path data : Text) (index : Nat) (exchange : Exchange)
    (found : (send config origin method path data transport).2.exchanges[index]? = some exchange) :
    Provenance (send config origin method path data transport).2.exchanges index exchange := by
  rcases getElem?_snoc.mp found with earlier | ⟨isLength, rfl⟩
  · exact (tracked.known index exchange earlier).snoc _
  · subst isLength
    exact (tracked.next_provenance config origin method path data).snoc _

variable {token location : Text}

lemma Tracked.others_snoc (tracked : Tracked transport) (origin : Origin) (method : Method)
    (path data : Text) (session : Session transport.exchanges position token location)
    (other : transport.grantedBy ≠ some position) :
    Closed (send config origin method path data transport).2.exchanges position token
      location := by
  exact (tracked.others position token location session other).snoc other

lemma not_grants_of_origin
    (notLogin : exchange.origin ≠ .login) : ¬ exchange.Grants token location :=
  fun grants => notLogin grants.login

/-- A request of the user. -/
lemma Tracked.rest (tracked : Tracked transport) (method : Method) (path data : Text) :
    Tracked (send config .rest method path data transport).2 where
  known := tracked.known_snoc config .rest method path data
  logins := by
    intro exchange member isLogin
    rw [send_exchanges, mem_append, mem_singleton] at member
    rcases member with earlier | rfl
    · exact tracked.logins exchange earlier isLogin
    · cases isLogin
  withoutToken := tracked.withoutToken
  isOpen := by
    intro position granted
    exact (tracked.isOpen position granted).snoc rfl granted
      (tracked.next_carries config granted .rest method path data)
  others := by
    intro position token location session other
    rcases session.of_snoc with earlier | ⟨-, grants⟩
    · exact tracked.others_snoc config .rest method path data earlier other
    · exact absurd grants (not_grants_of_origin (fun isLogin => nomatch isLogin))

lemma Tracked.endCurrentSession
    (tracked : Tracked transport) : Tracked (endCurrentSession config transport) ∧
      LoggedOut (endCurrentSession config transport) := by
  refine ⟨?_, rfl, rfl, rfl⟩
  unfold Transport.endCurrentSession
  cases uri : transport.sessionAuthUri with
  | nil =>
    -- A session always has a location: there is none that is open.
    refine ⟨tracked.known, tracked.logins, fun _ => rfl, fun _ granted => (by cases granted), ?_⟩
    intro position token location session _
    apply tracked.others position token location session
    intro granted
    have same := (tracked.isOpen position granted).of_session session
    exact session.hasLocation (same.2.trans uri)
  | cons letter letters =>
    have sent : (if !(letter :: letters).isEmpty then
        (send config .closing .delete (letter :: letters) [] transport).2 else transport) =
        (send config .closing .delete transport.sessionAuthUri [] transport).2 := by
      rw [uri]
      rfl
    simp only [sent]
    refine ⟨tracked.known_snoc config .closing .delete transport.sessionAuthUri [], ?_,
      fun _ => rfl, fun _ granted => (by cases granted), ?_⟩
    · intro exchange member isLogin
      simp only [send_exchanges, mem_append, mem_singleton] at member
      rcases member with earlier | rfl
      · exact tracked.logins exchange earlier isLogin
      · cases isLogin
    · intro position token location session _
      rcases session.of_snoc with earlier | ⟨-, grants⟩
      · by_cases granted : transport.grantedBy = some position
        · have isOpen := tracked.isOpen position granted
          rcases isOpen.of_session earlier with ⟨rfl, rfl⟩
          exact isOpen.close tracked.known rfl rfl rfl granted
            (tracked.next_carries config granted .closing .delete _ [])
        · exact tracked.others_snoc config .closing .delete _ [] earlier granted
      · exact absurd grants (not_grants_of_origin (fun isLogin => by cases isLogin))

/-! ## Logins -/

section

variable (out : LoggedOut transport)

include out

lemma LoggedOut.next_token (origin : Origin) (method : Method) (path data : Text) :
    (nextExchange config origin method path data transport).token = none := by
  rw [nextExchange_token, if_pos out.token]

lemma LoggedOut.after_send (origin : Origin) (method : Method) (path data : Text) :
    LoggedOut (send config origin method path data transport).2 :=
  ⟨out.token, out.location, out.grant⟩

section

variable (tracked : Tracked transport)

include tracked

lemma LoggedOut.logins_snoc (method : Method) (path data : Text) (exchange : Exchange)
    (member : exchange ∈ (send config .login method path data transport).2.exchanges)
    (isLogin : exchange.origin = .login) : exchange.token = none := by
  rw [send_exchanges, mem_append, mem_singleton] at member
  rcases member with earlier | rfl
  · exact tracked.logins exchange earlier isLogin
  · exact out.next_token config .login method path data

lemma LoggedOut.others_snoc (method : Method) (path data : Text)
    (session : Session (send config .login method path data transport).2.exchanges position
      token location) :
    Closed (send config .login method path data transport).2.exchanges position token location ∨
      (position = transport.exchanges.length ∧
        (nextExchange config .login method path data transport).Grants token location) := by
  have split := session
  rcases split.of_snoc with earlier | last
  · refine .inl (tracked.others_snoc config .login method path data earlier ?_)
    rw [out.grant]
    exact fun granted => nomatch granted
  · exact .inr last

lemma LoggedOut.tracked_send (method : Method) (path data : Text)
    (opensNone : ∀ token location, token ≠ [] -> location ≠ [] ->
      ¬ (nextExchange config .login method path data transport).Grants token location) :
    Tracked (send config .login method path data transport).2 where
  known := tracked.known_snoc config .login method path data
  logins := out.logins_snoc config tracked method path data
  withoutToken := tracked.withoutToken
  isOpen := by
    intro position granted
    exact nomatch out.grant.symm.trans granted
  others := by
    intro position token location session _
    rcases out.others_snoc config tracked method path data session with isClosed | ⟨-, grants⟩
    · exact isClosed
    · exact absurd grants (opensNone token location session.hasToken session.hasLocation)

lemma LoggedOut.tracked_grant (path data : Text)
    (grants : (nextExchange config .login .post path data transport).Grants token location) :
    Tracked { (send config .login .post path data transport).2 with
      sessionAuthUri := location
      xAuthToken := token
      grantedBy := if token.isEmpty then none else some transport.exchanges.length } where
  known := tracked.known_snoc config .login .post path data
  logins := out.logins_snoc config tracked .post path data
  withoutToken := by
    intro isNone
    cases token with
    | nil => rfl
    | cons letter letters => cases isNone
  isOpen := by
    intro position granted
    cases token with
    | nil => cases granted
    | cons letter letters =>
      cases granted
      refine ⟨⟨_, getElem?_snoc.mpr (.inr ⟨rfl, rfl⟩), grants⟩, cons_ne_nil _ _, ?_⟩
      intro index exchange after found
      have inside := lt_of_getElem? found
      simp only [send_exchanges, length_append, length_singleton] at inside
      omega
  others := by
    intro position token' location' session other
    rcases out.others_snoc config tracked .post path data session with isClosed | ⟨last, grants'⟩
    · exact isClosed
    · have same := (grants.unique grants').1
      cases token with
      | nil => exact absurd same.symm session.hasToken
      | cons letter letters => exact absurd (congrArg some last.symm) other

lemma takeSession_tracked (path data : Text) :
    Tracked (takeSession (send config .login .post path data transport).1
      (send config .login .post path data transport).2).2 := by
  have reads : (nextExchange config .login .post path data transport).reply =
      (send config .login .post path data transport).1 := rfl
  cases reply : (send config .login .post path data transport).1 with
  | error status =>
    apply out.tracked_send config tracked .post path data
    intro token location _ _ grants
    rcases grants.answered with ⟨response, answered, -⟩
    rw [reads, reply] at answered
    cases answered
  | ok response =>
    have same : ∀ other, (nextExchange config .login .post path data transport).reply =
        .ok other -> other = response := by
      intro other answered
      rw [reads, reply] at answered
      exact (Except.ok.inj answered).symm
    unfold takeSession
    cases hasToken : response.headers.lookup kXAuthToken with
    | none =>
      simp only [hasToken]
      apply out.tracked_send config tracked .post path data
      intro token location _ _ grants
      rcases grants.answered with ⟨other, answered, found, -⟩
      rw [same other answered, hasToken] at found
      cases found
    | some token =>
      cases hasLocation : response.headers.lookup kLocation with
      | none =>
        simp only [hasToken, hasLocation]
        apply out.tracked_send config tracked .post path data
        intro token' location _ _ grants
        rcases grants.answered with ⟨other, answered, -, found⟩
        rw [same other answered, hasLocation] at found
        cases found
      | some location =>
        simp only [hasToken, hasLocation, send_exchanges, length_append]
        exact out.tracked_grant config tracked path data
          ⟨rfl, rfl, response, reads.trans reply, hasToken, hasLocation⟩

end

end

lemma postSession_cases (root : Response) (transport : HttpTransport World) :
    ((postSession config root transport).2 = transport) ∨
      ∃ postUri payload,
        let posted := send config .login .post postUri payload transport
        postSession config root transport =
          (.ok (takeSession posted.1 posted.2).1, (takeSession posted.1 posted.2).2) := by
  unfold postSession
  cases root.body with
  | bytes _ => exact .inl rfl
  | json value =>
    cases target : getSessionServicePostTarget value with
    | error status =>
      left
      simp only [target]
    | ok postUri =>
      simp only [target]
      cases config.dump (sessionPostPayload transport) with
      | error failure => exact .inl rfl
      | ok payload => exact .inr ⟨postUri, payload, rfl⟩

lemma postSession_tracked (root : Response) (out : LoggedOut transport)
    (tracked : Tracked transport) : Tracked (postSession config root transport).2 := by
  rcases postSession_cases config root transport with same | ⟨postUri, payload, posts⟩
  · rw [same]
    exact tracked
  · rw [posts]
    exact takeSession_tracked config out tracked postUri payload

lemma lockedDoSessionAuth_tracked (out : LoggedOut transport) (tracked : Tracked transport) :
    Tracked (lockedDoSessionAuth config transport).2 := by
  have gotTracked : Tracked (send config .login .get (text "/redfish/v1") [] transport).2 := by
    apply out.tracked_send config tracked .get (text "/redfish/v1") []
    intro token location _ _ grants
    cases grants.posts
  unfold lockedDoSessionAuth
  split
  · exact tracked
  · cases got : (send config .login .get (text "/redfish/v1") [] transport).1 with
    | error status =>
      simp only [got]
      exact gotTracked
    | ok root =>
      simp only [got]
      exact postSession_tracked config root (out.after_send config .login .get _ _) gotTracked

lemma doSessionAuth_tracked (tracked : Tracked transport)
    (username password : Text) : Tracked (doSessionAuth config username password transport).2 := by
  rcases tracked.endCurrentSession config with ⟨endTracked, out⟩
  refine lockedDoSessionAuth_tracked config ⟨out.token, out.location, out.grant⟩ ?_
  exact ⟨endTracked.known, endTracked.logins, endTracked.withoutToken, endTracked.isOpen,
    endTracked.others⟩

lemma call_tracked (tracked : Tracked transport)
    (call : HttpCall) : Tracked (transport.call config call) := by
  cases call with
  | doSessionAuth username password =>
    exact doSessionAuth_tracked config tracked username password
  | rest method path data => exact tracked.rest config method path data

lemma calls_tracked (calls : List HttpCall)
    (tracked : Tracked transport) : Tracked (calls.foldl (.call config) transport) := by
  induction calls generalizing transport with
  | nil => exact tracked
  | cons call calls ih => exact ih (call_tracked config tracked call)

/-! ## Behind a login that has failed -/

lemma Silent.refl (transport : HttpTransport World) : Silent transport transport :=
  ⟨[], (append_nil _).symm, forall_mem_nil _⟩

lemma Silent.trans {first second third : HttpTransport World} (early : Silent first second)
    (late : Silent second third) : Silent first third := by
  rcases early with ⟨sent, more, silent⟩
  rcases late with ⟨sent', more', silent'⟩
  refine ⟨sent ++ sent', by rw [more', more, append_assoc], ?_⟩
  intro exchange member
  rcases mem_append.mp member with isEarly | isLate
  · exact silent exchange isEarly
  · exact silent' exchange isLate

lemma LoggedOut.silent_send (out : LoggedOut transport) (origin : Origin) (method : Method)
    (path data : Text) : Silent transport (send config origin method path data transport).2 := by
  refine ⟨[nextExchange config origin method path data transport], rfl, ?_⟩
  intro exchange member
  rw [mem_singleton.mp member]
  exact out.next_token config origin method path data

lemma LoggedOut.endCurrentSession
    (out : LoggedOut transport) : endCurrentSession config transport = transport := by
  rcases transport with ⟨username, password, token, location, world, exchanges, grantedBy⟩
  rcases out with ⟨noToken, noLocation, noGrant⟩
  cases noToken
  cases noLocation
  cases noGrant
  rfl

lemma takeSession_exchanges (reply : StatusOr Response) (transport : HttpTransport World) :
    (takeSession reply transport).2.exchanges = transport.exchanges := by
  unfold takeSession
  repeat' split
  all_goals rfl

lemma takeSession_failed {reply : StatusOr Response}
    (failed : (takeSession reply transport).1.isOk = false) :
    (takeSession reply transport).2 = transport := by
  unfold takeSession at failed ⊢
  split at failed
  · rfl
  · split at failed
    · rfl
    · split at failed
      · rfl
      · cases failed

lemma postSession_silent (root : Response)
    (out : LoggedOut transport) : Silent transport (postSession config root transport).2 := by
  rcases postSession_cases config root transport with same | ⟨postUri, payload, posts⟩
  · rw [same]
    exact .refl transport
  · rw [posts]
    rcases out.silent_send config .login .post postUri payload with ⟨sent, more, silent⟩
    exact ⟨sent, (takeSession_exchanges _ _).trans more, silent⟩

lemma postSession_failed (root : Response) (out : LoggedOut transport)
    (failed : succeeds (postSession config root transport).1 = false) :
    LoggedOut (postSession config root transport).2 := by
  rcases postSession_cases config root transport with same | ⟨postUri, payload, posts⟩
  · rw [same]
    exact out
  · rw [posts] at failed ⊢
    simp only [takeSession_failed failed]
    exact out.after_send config .login .post postUri payload

lemma lockedDoSessionAuth_silent (out : LoggedOut transport) :
    Silent transport (lockedDoSessionAuth config transport).2 := by
  have got := out.silent_send config .login .get (text "/redfish/v1") []
  unfold lockedDoSessionAuth
  split
  · exact .refl transport
  · cases reply : (send config .login .get (text "/redfish/v1") [] transport).1 with
    | error status =>
      simp only [reply]
      exact got
    | ok root =>
      simp only [reply]
      exact got.trans (postSession_silent config root (out.after_send config .login .get _ _))

lemma lockedDoSessionAuth_failed (out : LoggedOut transport)
    (failed : succeeds (lockedDoSessionAuth config transport).1 = false) :
    LoggedOut (lockedDoSessionAuth config transport).2 := by
  have gotOut := out.after_send config .login .get (text "/redfish/v1") []
  unfold lockedDoSessionAuth at failed ⊢
  split at failed
  · cases failed
  · rename_i hasCredentials
    rw [if_neg hasCredentials]
    cases reply : (send config .login .get (text "/redfish/v1") [] transport).1 with
    | error status =>
      simp only [reply]
      exact gotOut
    | ok root =>
      simp only [reply] at failed ⊢
      exact postSession_failed config root gotOut failed

lemma doSessionAuth_failed {username password : Text}
    (failed : succeeds (doSessionAuth config username password transport).1 = false) :
    LoggedOut (doSessionAuth config username password transport).2 :=
  lockedDoSessionAuth_failed config ⟨rfl, rfl, rfl⟩ failed

/-- A transport without a session sends no token in the next call, also when this is a login
that succeeds. -/
lemma LoggedOut.silent_call (out : LoggedOut transport)
    (call : HttpCall) : Silent transport (transport.call config call) := by
  cases call with
  | doSessionAuth username password =>
    show Silent transport (doSessionAuth config username password transport).2
    unfold doSessionAuth
    rw [out.endCurrentSession config]
    have readyOut : LoggedOut { transport with
        sessionUsername := username
        sessionPassword := password } := ⟨out.token, out.location, out.grant⟩
    exact lockedDoSessionAuth_silent config readyOut
  | rest method path data => exact out.silent_send config .rest method path data

lemma LoggedOut.calls (out : LoggedOut transport) (later : List HttpCall)
    (fail : LoginsFail config later transport) :
    LoggedOut (later.foldl (.call config) transport) ∧
      Silent transport (later.foldl (.call config) transport) := by
  induction later generalizing transport with
  | nil => exact ⟨out, .refl transport⟩
  | cons call later ih =>
    have silent := out.silent_call config call
    cases call with
    | doSessionAuth username password =>
      rcases ih (doSessionAuth_failed config fail.1) fail.2 with ⟨outLater, silentLater⟩
      exact ⟨outLater, silent.trans silentLater⟩
    | rest method path data =>
      rcases ih (out.after_send config .rest method path data) fail with ⟨outLater, silentLater⟩
      exact ⟨outLater, silent.trans silentLater⟩

/-! ## Whole lives -/

/-- In every life of a transport, each session is deleted once, before the next login. Its token is
sent in between and with the last request, and only when a login before has granted it. Behind a
login that has failed no token is sent until a login has succeeded. -/
theorem life_closes_sessions (calls : List HttpCall) (world : World) :
    (∀ position token location,
      Session (life config calls world).exchanges position token location ->
        Closed (life config calls world).exchanges position token location) ∧
    (∀ (index : Nat) (exchange : Exchange),
      (life config calls world).exchanges[index]? = some exchange ->
        Provenance (life config calls world).exchanges index exchange) ∧
    (∀ exchange ∈ (life config calls world).exchanges,
      exchange.origin = .login -> exchange.token = none) ∧
    (∀ username password later next,
      let before := calls.foldl (.call config) (.start world)
      let failed := doSessionAuth config username password before
      let after := later.foldl (.call config) failed.2
      succeeds failed.1 = false -> LoginsFail config later failed.2 ->
        Silent failed.2 (after.call config next) ∧
          Silent failed.2 (endCurrentSession config after)) := by
  rcases (calls_tracked config calls (.start world)).endCurrentSession config with ⟨tracked, out⟩
  refine ⟨?_, tracked.known, tracked.logins, ?_⟩
  · intro position token location session
    apply tracked.others position token location session
    exact fun granted => nomatch granted
  · intro username password later next before failed after hasFailed fail
    rcases (doSessionAuth_failed config hasFailed).calls config later fail with
      ⟨outLater, silentLater⟩
    refine ⟨silentLater.trans (outLater.silent_call config next), ?_⟩
    rw [outLater.endCurrentSession config]
    exact silentLater

end

/-- A service that grants the token `t` for a session at `/s`. -/
def grantingConfig : HttpConfig Unit where
  target := .tcp (text "host")
  headerKey := text "Content-Type"
  matchedValues := [text "application/json"]
  client := fun method _ world =>
    match method with
    | .get => (.ok ⟨200, [], [(text "Content-Type", text "application/json")]⟩, world)
    | .post => (.ok ⟨201, [], [(kXAuthToken, text "t"), (kLocation, text "/s")]⟩, world)
    | _ => (.ok ⟨200, [], []⟩, world)
  parse := fun _ => .object [(text "SessionService",
    .object [(text "@odata.id", .string (text "/redfish/v1/SessionService"))])]
  dump := fun _ => .ok []

theorem grantingConfig_closes :
    Session (life grantingConfig [.doSessionAuth (text "user") (text "word"),
        .rest .get (text "/redfish/v1/Chassis") []] ()).exchanges 1 (text "t") (text "/s") ∧
      Closed (life grantingConfig [.doSessionAuth (text "user") (text "word"),
        .rest .get (text "/redfish/v1/Chassis") []] ()).exchanges 1 (text "t") (text "/s") := by
  have session : Session (life grantingConfig [.doSessionAuth (text "user") (text "word"),
      .rest .get (text "/redfish/v1/Chassis") []] ()).exchanges 1 (text "t") (text "/s") := by
    refine ⟨⟨_, rfl, rfl, rfl, _, rfl, rfl, rfl⟩, by decide, by decide⟩
  exact ⟨session, (life_closes_sessions grantingConfig _ ()).1 1 _ _ session⟩

end Ecclesia.Transport
