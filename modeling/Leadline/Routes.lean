import Leadline.GatewayAccess
import Leadline.Library.PathFormats

namespace Leadline

open Library

inductive Method
  | get
  | post
  | patch
  | delete
  deriving DecidableEq

inductive EndpointName
  | healthz
  | readyz
  | metrics
  | me
  | provisionTenant
  | getPlanLimits
  | enrollDesignPartner
  | promoteRollout
  | getTenantUsage
  | listDlqJobs
  | replayDlqJob
  | createLead
  | listLeads
  | getLead
  | updateLead
  | deleteLead
  | createTimelineEvent
  | listTimelineEvents
  | attachSession
  | getTimelineEvent
  | updateTimelineEvent
  | deleteTimelineEvent
  | createSession
  | listSessions
  | getSession
  | updateSession
  | deleteSession
  | createMessage
  | listMessages
  | getMessage
  | updateMessage
  | deleteMessage
  | createRule
  | listRules
  | getRule
  | updateRule
  | deleteRule
  | createSequence
  | listSequences
  | getSequence
  | updateSequence
  | deleteSequence
  | createStep
  | listSteps
  | updateStep
  | deleteStep
  | enrollLead
  | syncHubspotLead
  | getCalendarAvailability
  | createCalendarBooking
  | receiveSvixWebhook
  | receiveHubspotWebhook
  deriving DecidableEq

structure APIRouter where
  basePath : String := ""
  guard : Option Guard := none
  routes : List (Method × String × EndpointName)

deriving instance DecidableEq for Guard

structure Route where
  method : Method
  path : String
  guard : Option Guard
  endpoint : EndpointName
  deriving DecidableEq

namespace Routes

def healthRouter : APIRouter where
  routes := [(.get, "/healthz", .healthz), (.get, "/readyz", .readyz)]

def metricsRouter : APIRouter where
  routes := [(.get, "/metrics", .metrics)]

def authRouter : APIRouter where
  basePath := "/auth"
  routes := [(.get, "/me", .me)]

def adminRouter : APIRouter where
  basePath := "/admin"
  guard := some .requireAdmin
  routes :=
    [(.post, "/provision", .provisionTenant),
      (.get, "/tenants/{tenant_id}/plan-limits", .getPlanLimits),
      (.post, "/design-partners/{tenant_id}/enroll", .enrollDesignPartner),
      (.post, "/design-partners/{tenant_id}/promote", .promoteRollout),
      (.get, "/tenants/{tenant_id}/usage", .getTenantUsage),
      (.get, "/dlq", .listDlqJobs),
      (.post, "/dlq/{job_id}/replay", .replayDlqJob)]

def leadsRouter : APIRouter where
  basePath := "/leads"
  guard := some .getAuthContext
  routes :=
    [(.post, "", .createLead),
      (.get, "", .listLeads),
      (.get, "/{lead_id}", .getLead),
      (.patch, "/{lead_id}", .updateLead),
      (.delete, "/{lead_id}", .deleteLead),
      (.post, "/{lead_id}/timeline", .createTimelineEvent),
      (.get, "/{lead_id}/timeline", .listTimelineEvents),
      (.post, "/{lead_id}/attach-session", .attachSession)]

def timelineRouter : APIRouter where
  basePath := "/timeline"
  guard := some .getAuthContext
  routes :=
    [(.get, "/{event_id}", .getTimelineEvent),
      (.patch, "/{event_id}", .updateTimelineEvent),
      (.delete, "/{event_id}", .deleteTimelineEvent)]

def sessionsRouter : APIRouter where
  basePath := "/sessions"
  guard := some .getAuthContext
  routes :=
    [(.post, "", .createSession),
      (.get, "", .listSessions),
      (.get, "/{session_id}", .getSession),
      (.patch, "/{session_id}", .updateSession),
      (.delete, "/{session_id}", .deleteSession),
      (.post, "/{session_id}/messages", .createMessage),
      (.get, "/{session_id}/messages", .listMessages)]

def messagesRouter : APIRouter where
  basePath := "/messages"
  guard := some .getAuthContext
  routes :=
    [(.get, "/{message_id}", .getMessage),
      (.patch, "/{message_id}", .updateMessage),
      (.delete, "/{message_id}", .deleteMessage)]

def routingRulesRouter : APIRouter where
  basePath := "/routing/rules"
  guard := some .requireAdmin
  routes :=
    [(.post, "", .createRule),
      (.get, "", .listRules),
      (.get, "/{rule_id}", .getRule),
      (.patch, "/{rule_id}", .updateRule),
      (.delete, "/{rule_id}", .deleteRule)]

def sequencesRouter : APIRouter where
  basePath := "/sequences"
  guard := some .requireAdmin
  routes :=
    [(.post, "", .createSequence),
      (.get, "", .listSequences),
      (.get, "/{sequence_id}", .getSequence),
      (.patch, "/{sequence_id}", .updateSequence),
      (.delete, "/{sequence_id}", .deleteSequence),
      (.post, "/{sequence_id}/steps", .createStep),
      (.get, "/{sequence_id}/steps", .listSteps),
      (.patch, "/{sequence_id}/steps/{step_id}", .updateStep),
      (.delete, "/{sequence_id}/steps/{step_id}", .deleteStep),
      (.post, "/{sequence_id}/enroll", .enrollLead)]

def integrationsRouter : APIRouter where
  basePath := "/integrations"
  guard := some .requireAdmin
  routes :=
    [(.post, "/hubspot/leads/{lead_id}/sync", .syncHubspotLead),
      (.get, "/calendar/availability", .getCalendarAvailability),
      (.post, "/calendar/bookings", .createCalendarBooking)]

def webhooksRouter : APIRouter where
  basePath := "/webhooks"
  routes := [(.post, "/svix", .receiveSvixWebhook), (.post, "/hubspot", .receiveHubspotWebhook)]

def rootRouters : List APIRouter := [healthRouter, metricsRouter]

def apiRouters : List APIRouter :=
  [authRouter, adminRouter, leadsRouter, timelineRouter, sessionsRouter, messagesRouter, routingRulesRouter,
    sequencesRouter, integrationsRouter, webhooksRouter]

end Routes

namespace APIRouter

/-- `include_router` -/
def mount (apiPrefix : String) (router : APIRouter) : List Route :=
  router.routes.map fun (method, path, endpoint) =>
    ⟨method, apiPrefix ++ (router.basePath ++ path), router.guard, endpoint⟩

end APIRouter

def routes (apiPrefix : String) : List Route :=
  Routes.rootRouters.flatMap (·.mount "") ++ Routes.apiRouters.flatMap (·.mount apiPrefix)

def pathSegment (s : List Char) : Segment (List Char) := if s.head? = some '{' then .parameter else .text s

def pathFormat (path : List Char) : List (Segment (List Char)) := (path.splitOn '/').map pathSegment

/-- `compile_path`, as a relation between the path of a route, with parameters that are whole segments, and that of a
request. -/
def Route.Matches (r : Route) (path : String) : Prop :=
  Segment.Fits (· ≠ []) (pathFormat r.path.toList) (path.toList.splitOn '/')

instance (r : Route) (path : String) : Decidable (r.Matches path) :=
  inferInstanceAs (Decidable (Segment.Fits _ _ _))

def resolve (table : List Route) (method : Method) (path : String) : Option Route :=
  table.find? fun r => r.method = method ∧ r.Matches path

theorem resolve_eq_some {table : List Route} {method : Method} {path : String} {r : Route}
    (h : resolve table method path = some r) : r ∈ table ∧ r.method = method ∧ r.Matches path := by
  unfold resolve at h
  have hfound := List.find?_some h
  exact ⟨List.mem_of_find?_eq_some h, of_decide_eq_true hfound⟩

def Route.IsProbe (r : Route) : Prop := r.endpoint = .healthz ∨ r.endpoint = .readyz ∨ r.endpoint = .metrics

instance (r : Route) : Decidable r.IsProbe := inferInstanceAs (Decidable (_ ∨ _))

def Route.IsWebhook (r : Route) : Prop := r.endpoint = .receiveSvixWebhook ∨ r.endpoint = .receiveHubspotWebhook

instance (r : Route) : Decidable r.IsWebhook := inferInstanceAs (Decidable (_ ∨ _))

def UnderDocs (apiPrefix : String) : Prop := "/docs".toList <+: apiPrefix.toList

instance (apiPrefix : String) : Decidable (UnderDocs apiPrefix) := inferInstanceAs (Decidable (_ <+: _))

def Route.IsPublic (apiPrefix : String) (r : Route) : Prop :=
  r.IsProbe ∨ r.IsWebhook ∧ (UnderDocs apiPrefix ∨ apiPrefix = "/v1")

instance (apiPrefix : String) (r : Route) : Decidable (r.IsPublic apiPrefix) := inferInstanceAs (Decidable (_ ∨ _))

namespace Routes

def rootRoutes : List Route := rootRouters.flatMap (·.mount "")

def apiRoutes : List Route := apiRouters.flatMap (·.mount "")

def under (apiPrefix : String) (r : Route) : Route := { r with path := apiPrefix ++ r.path }

theorem routes_eq (apiPrefix : String) : routes apiPrefix = rootRoutes ++ apiRoutes.map (under apiPrefix) := by
  have hmount : ∀ router : APIRouter, router.mount apiPrefix = (router.mount "").map (under apiPrefix) := by
    intro router
    simp [APIRouter.mount, under]
  rw [routes, apiRoutes, List.map_flatMap]
  simp only [hmount]
  rfl

def guardOf (n : EndpointName) : Option Guard := ((rootRoutes ++ apiRoutes).find? (·.endpoint = n)).bind (·.guard)

def IsRoot (r : Route) : Prop :=
  r.IsProbe ∧ r.path ∈ AuthMiddleware.excludedPaths ∧ (pathFormat r.path.toList).length = 2 ∧
    pathFormat r.path.toList = (r.path.toList.splitOn '/').map .text

instance : DecidablePred IsRoot := fun _ => inferInstanceAs (Decidable (_ ∧ _ ∧ _ ∧ _))

def BeginsApart (s : Route) : Prop :=
  ∀ t ∈ (s.path.toList.tail.splitOn '/').head?, (pathFormat s.path.toList.tail).head? = some (.text t) ∧
    ¬t <+: ['d', 'o', 'c', 's'] ∧ ¬['d', 'o', 'c', 's'] <+: t

instance : DecidablePred BeginsApart := fun s =>
  inferInstanceAs (Decidable (∀ t ∈ (s.path.toList.tail.splitOn '/').head?, _))

def WebhookListed (s : Route) : Prop :=
  s.IsWebhook → (under "/v1" s).path ∈ AuthMiddleware.excludedPaths ∧
    pathFormat (under "/v1" s).path.toList = ((under "/v1" s).path.toList.splitOn '/').map .text

instance : DecidablePred WebhookListed := fun _ => inferInstanceAs (Decidable (_ → _ ∧ _))

def FitsListed (s : Route) : Prop :=
  ∀ e ∈ AuthMiddleware.excludedPaths, ∀ k < 5,
    Segment.Fits (· ≠ []) (pathFormat s.path.toList.tail) ((e.toList.splitOn '/').drop k) →
      s.IsWebhook ∧ (e.toList.splitOn '/').take k = "/v1".toList.splitOn '/'

instance : DecidablePred FitsListed := fun _ => inferInstanceAs (Decidable (∀ e ∈ AuthMiddleware.excludedPaths, _))

def Apart (r : Route) : Prop :=
  ∀ s ∈ rootRoutes ++ apiRoutes, r.method = s.method →
    Segment.overlap (· ≠ []) (pathFormat r.path.toList) (pathFormat s.path.toList) → r.endpoint = s.endpoint

instance : DecidablePred Apart := fun _ => inferInstanceAs (Decidable (∀ s ∈ rootRoutes ++ apiRoutes, _))

theorem table_checked :
    (∀ r ∈ rootRoutes ++ apiRoutes, r.path.toList.head? = some '/' ∧ guardOf r.endpoint = r.guard ∧ Apart r) ∧
    (∀ r ∈ rootRoutes, IsRoot r) ∧
    (∀ s ∈ apiRoutes, ¬s.IsProbe ∧ BeginsApart s ∧ WebhookListed s ∧ FitsListed s) ∧
    (∀ e ∈ AuthMiddleware.excludedPaths, (e.toList.splitOn '/').length < 5) ∧
    ((rootRoutes ++ apiRoutes).map Route.endpoint).Nodup := by
  decide +kernel

variable {apiPrefix path : String} {r s : Route}

theorem head_path (hr : r ∈ rootRoutes ++ apiRoutes) : r.path.toList.head? = some '/' := (table_checked.1 r hr).1

theorem apart (hr : r ∈ rootRoutes ++ apiRoutes) (hs : s ∈ rootRoutes ++ apiRoutes) (hmethod : r.method = s.method)
    (h : Segment.overlap (· ≠ []) (pathFormat r.path.toList) (pathFormat s.path.toList)) : r = s := by
  obtain ⟨hall, -, -, -, hnodup⟩ := table_checked
  exact List.inj_on_of_nodup_map hnodup hr hs ((hall r hr).2.2 s hs hmethod h)

theorem api_not_probe (hs : s ∈ apiRoutes) : ¬s.IsProbe := (table_checked.2.2.1 s hs).1

theorem root_not_api (hr : r ∈ rootRoutes) : r ∉ apiRoutes := fun hs =>
  api_not_probe hs (table_checked.2.1 r hr).1

theorem pathFormat_append (left right : List Char) :
    pathFormat (left ++ '/' :: right) = pathFormat left ++ pathFormat right := by
  rw [pathFormat, List.splitOn_append_cons_self, List.map_append]
  rfl

theorem length_pathFormat (path : List Char) : 0 < (pathFormat path).length := by
  rw [pathFormat, List.length_map, List.length_pos_iff]
  exact List.splitOn_ne_nil _ _

theorem path_eq (hr : r ∈ rootRoutes ++ apiRoutes) : r.path.toList = '/' :: r.path.toList.tail := by
  obtain ⟨rest, hrest⟩ := List.head?_eq_some_iff.mp (head_path hr)
  rw [hrest, List.tail_cons]

theorem pathFormat_eq (hr : r ∈ rootRoutes ++ apiRoutes) :
    pathFormat r.path.toList = .text [] :: pathFormat r.path.toList.tail := by
  rw [path_eq hr, List.tail_cons]
  exact pathFormat_append [] _

theorem pathFormat_under (hr : r ∈ rootRoutes ++ apiRoutes) :
    pathFormat (under apiPrefix r).path.toList = pathFormat apiPrefix.toList ++ pathFormat r.path.toList.tail := by
  rw [under, String.toList_append, path_eq hr, List.tail_cons, pathFormat_append]

theorem overlap_api (hr : r ∈ apiRoutes) (hs : s ∈ apiRoutes)
    (h : Segment.overlap (· ≠ []) (pathFormat (under apiPrefix r).path.toList)
      (pathFormat (under apiPrefix s).path.toList)) :
    Segment.overlap (· ≠ []) (pathFormat r.path.toList) (pathFormat s.path.toList) := by
  have hr' := List.mem_append_right rootRoutes hr
  have hs' := List.mem_append_right rootRoutes hs
  rw [pathFormat_under hr', pathFormat_under hs'] at h
  rw [pathFormat_eq hr', pathFormat_eq hs', Segment.overlap_cons_text]
  exact Segment.overlap_append rfl h

theorem overlap_root (hr : r ∈ rootRoutes) (hs : s ∈ apiRoutes)
    (h : Segment.overlap (· ≠ []) (pathFormat r.path.toList) (pathFormat (under apiPrefix s).path.toList)) :
    Segment.overlap (· ≠ []) (pathFormat r.path.toList) (pathFormat s.path.toList) := by
  have hr' := List.mem_append_left apiRoutes hr
  have hs' := List.mem_append_right rootRoutes hs
  have hlength := Segment.length_of_overlap h
  rw [pathFormat_under hs', (table_checked.2.1 r hr).2.2.1, List.length_append] at hlength
  have hone : (pathFormat apiPrefix.toList).length = 1 := by
    have hleft := length_pathFormat apiPrefix.toList
    have hright := length_pathFormat s.path.toList.tail
    omega
  rw [pathFormat_under hs', pathFormat_eq hr'] at h
  rw [pathFormat_eq hr', pathFormat_eq hs', Segment.overlap_cons_text]
  have hlengths : [Segment.text ([] : List Char)].length = (pathFormat apiPrefix.toList).length := hone.symm
  exact Segment.overlap_append hlengths h

theorem eq_of_matches (hr : r ∈ routes apiPrefix) (hs : s ∈ routes apiPrefix) (hmethod : r.method = s.method)
    (hr' : r.Matches path) (hs' : s.Matches path) : r = s := by
  have hoverlap := Segment.overlap_of_fits hr' hs'
  rw [routes_eq, List.mem_append, List.mem_map] at hr hs
  rcases hr with hr | ⟨r, hr, rfl⟩
  · rcases hs with hs | ⟨s, hs, rfl⟩
    · exact apart (List.mem_append_left _ hr) (List.mem_append_left _ hs) hmethod hoverlap
    · have heq := apart (List.mem_append_left _ hr) (List.mem_append_right _ hs) hmethod
        (overlap_root hr hs hoverlap)
      exact absurd (heq ▸ hs) (root_not_api hr)
  · rcases hs with hs | ⟨s, hs, rfl⟩
    · have heq := apart (List.mem_append_left _ hs) (List.mem_append_right _ hr) hmethod.symm
        (overlap_root hs hr (Segment.overlap_of_fits hs' hr'))
      exact absurd (heq ▸ hr) (root_not_api hs)
    · rw [apart (List.mem_append_right _ hr) (List.mem_append_right _ hs) hmethod (overlap_api hr hs hoverlap)]

theorem eq_path_of_texts (htexts : pathFormat r.path.toList = (r.path.toList.splitOn '/').map .text)
    (h : r.Matches path) : path = r.path := by
  rw [Route.Matches, htexts, ← List.append_nil (List.map _ _)] at h
  obtain ⟨rest, hrest, hnil⟩ := Segment.fits_texts_append.mp h
  cases hnil
  rw [List.append_nil] at hrest
  exact String.toList_inj.mp (eq_of_splitOn_eq hrest)

theorem pathFormat_of_texts {chars : List Char} (h : '{' ∉ chars) :
    pathFormat chars = (chars.splitOn '/').map .text := by
  apply List.map_congr_left
  intro part hpart
  apply if_neg
  intro hhead
  obtain ⟨rest, rfl⟩ := List.head?_eq_some_iff.mp hhead
  exact h (mem_of_mem_splitOn List.mem_cons_self hpart)

theorem matches_under (hbraces : '{' ∉ apiPrefix.toList) (hs : s ∈ apiRoutes) (h : (under apiPrefix s).Matches path) :
    ∃ rest, path.toList = apiPrefix.toList ++ '/' :: rest ∧
      Segment.Fits (· ≠ []) (pathFormat s.path.toList.tail) (rest.splitOn '/') := by
  rw [Route.Matches, pathFormat_under (List.mem_append_right _ hs), pathFormat_of_texts hbraces] at h
  obtain ⟨parts, hparts, hfits⟩ := Segment.fits_texts_append.mp h
  have hne : parts ≠ [] := by
    rintro rfl
    have hlength := length_pathFormat s.path.toList.tail
    rw [List.Forall₂.length_eq hfits] at hlength
    exact Nat.lt_irrefl 0 hlength
  obtain ⟨rest, hpath, rfl⟩ := splitOn_eq_append hparts hne
  exact ⟨rest, hpath, hfits⟩

theorem docs_eq : "/docs".toList = ['/', 'd', 'o', 'c', 's'] := by decide

theorem not_docs (hs : s ∈ apiRoutes) {rest : List Char}
    (hfits : Segment.Fits (· ≠ []) (pathFormat s.path.toList.tail) (rest.splitOn '/')) :
    ¬['d', 'o', 'c', 's'] <+: rest := by
  intro hdocs
  obtain ⟨t, more, htexts⟩ := List.exists_cons_of_ne_nil (List.splitOn_ne_nil '/' s.path.toList.tail)
  obtain ⟨-, hfirst, -⟩ := table_checked.2.2.1 s hs
  obtain ⟨hhead, hshort, hlong⟩ := hfirst t (by rw [htexts]; rfl)
  obtain ⟨others, hformat⟩ := List.head?_eq_some_iff.mp hhead
  rw [hformat] at hfits
  obtain ⟨u, parts, hu, -, hsplit⟩ := List.forall₂_cons_left_iff.mp hfits
  cases hu
  have hrest : t <+: rest := by
    have hjoin := congrArg (List.intercalate ['/']) hsplit
    rw [List.intercalate_splitOn] at hjoin
    rw [hjoin]
    cases parts with
    | nil => simp
    | cons part parts =>
      rw [List.intercalate_cons_cons, List.append_assoc]
      exact List.prefix_append _ _
  rcases List.prefix_or_prefix_of_prefix hdocs hrest with h | h
  · exact hlong h
  · exact hshort h

theorem docs_iff (hs : s ∈ apiRoutes) {rest : List Char}
    (hfits : Segment.Fits (· ≠ []) (pathFormat s.path.toList.tail) (rest.splitOn '/')) :
    "/docs".toList <+: apiPrefix.toList ++ '/' :: rest ↔ UnderDocs apiPrefix := by
  rw [UnderDocs, docs_eq]
  constructor
  · intro h
    rcases List.prefix_or_prefix_of_prefix h (List.prefix_append _ _) with hdocs | ⟨more, hmore⟩
    · exact hdocs
    · -- The slash of the path is the one that `/docs` begins with, or comes after all of it.
      cases more with
      | nil =>
        rw [List.append_nil] at hmore
        rw [hmore]
      | cons c more =>
        rw [← hmore, List.prefix_append_right_inj, List.cons_prefix_cons] at h
        obtain ⟨rfl, hrest⟩ := h
        cases hchars : apiPrefix.toList with
        | nil =>
          rw [hchars] at hmore
          have htail : more = ['d', 'o', 'c', 's'] := (List.cons.inj hmore).2
          exact absurd (htail ▸ hrest) (not_docs hs hfits)
        | cons a chars =>
          rw [hchars] at hmore
          have hmem : '/' ∈ ['d', 'o', 'c', 's'] := by
            rw [← (List.cons.inj hmore).2]
            exact List.mem_append_right _ List.mem_cons_self
          exact absurd hmem (by decide)
  · exact fun h => h.trans (List.prefix_append _ _)

theorem webhook_of_excluded (hs : s ∈ apiRoutes) {rest : List Char}
    (hpath : path.toList = apiPrefix.toList ++ '/' :: rest)
    (hfits : Segment.Fits (· ≠ []) (pathFormat s.path.toList.tail) (rest.splitOn '/'))
    (h : path ∈ AuthMiddleware.excludedPaths) : s.IsWebhook ∧ apiPrefix = "/v1" := by
  have hsplit : path.toList.splitOn '/' = apiPrefix.toList.splitOn '/' ++ rest.splitOn '/' := by
    rw [hpath, List.splitOn_append_cons_self]
  have hlt : (apiPrefix.toList.splitOn '/').length < 5 := by
    have hlength := table_checked.2.2.2.1 path h
    rw [hsplit, List.length_append] at hlength
    omega
  obtain ⟨-, -, -, hexcluded⟩ := table_checked.2.2.1 s hs
  have hfound := hexcluded path h _ hlt
  rw [hsplit, List.drop_left, List.take_left] at hfound
  obtain ⟨hwebhook, hv1⟩ := hfound hfits
  exact ⟨hwebhook, String.toList_inj.mp (eq_of_splitOn_eq hv1)⟩

theorem isExcluded_iff (hbraces : '{' ∉ apiPrefix.toList)
    (hr : r ∈ routes apiPrefix) (h : r.Matches path) :
    AuthMiddleware.isExcluded path ↔ r.IsProbe ∨ UnderDocs apiPrefix ∨ r.IsWebhook ∧ apiPrefix = "/v1" := by
  have hexcluded : AuthMiddleware.isExcluded path ↔
      path ∈ AuthMiddleware.excludedPaths ∨ "/docs".toList <+: path.toList := by
    rw [AuthMiddleware.isExcluded, Bool.or_eq_true, decide_eq_true_iff, List.isPrefixOf_iff_prefix]
  rw [hexcluded]
  rw [routes_eq, List.mem_append, List.mem_map] at hr
  rcases hr with hr | ⟨s, hs, rfl⟩
  · obtain ⟨hprobe, hpath, -, htexts⟩ := table_checked.2.1 r hr
    rw [eq_path_of_texts htexts h]
    exact iff_of_true (.inl hpath) (.inl hprobe)
  · have hprobe : ¬s.IsProbe := api_not_probe hs
    obtain ⟨rest, hpath, hfits⟩ := matches_under hbraces hs h
    rw [hpath, docs_iff hs hfits, or_iff_right (show ¬(under apiPrefix s).IsProbe from hprobe)]
    constructor
    · rintro (hlisted | hdocs)
      · obtain ⟨hwebhook, hv1⟩ := webhook_of_excluded hs hpath hfits hlisted
        exact .inr ⟨hwebhook, hv1⟩
      · exact .inl hdocs
    · rintro (hdocs | ⟨hwebhook, rfl⟩)
      · exact .inr hdocs
      · obtain ⟨-, -, hwebhooks, -⟩ := table_checked.2.2.1 s hs
        obtain ⟨hlisted, htexts⟩ := hwebhooks hwebhook
        rw [eq_path_of_texts htexts h]
        exact .inl hlisted

theorem guard_eq (hr : r ∈ routes apiPrefix) : r.guard = guardOf r.endpoint := by
  rw [routes_eq, List.mem_append, List.mem_map] at hr
  rcases hr with hr | ⟨s, hs, rfl⟩
  · exact (table_checked.1 r (List.mem_append_left _ hr)).2.1.symm
  · exact (table_checked.1 s (List.mem_append_right _ hs)).2.1.symm

end Routes

def Request.name : Request → EndpointName
  | .createLead _ => .createLead
  | .listLeads _ => .listLeads
  | .getLead _ => .getLead
  | .updateLead _ _ => .updateLead
  | .deleteLead _ => .deleteLead
  | .createTimelineEvent _ _ => .createTimelineEvent
  | .listTimelineEvents _ => .listTimelineEvents
  | .getTimelineEvent _ => .getTimelineEvent
  | .updateTimelineEvent _ _ => .updateTimelineEvent
  | .deleteTimelineEvent _ => .deleteTimelineEvent
  | .attachSession _ _ => .attachSession
  | .createSession _ => .createSession
  | .listSessions => .listSessions
  | .getSession _ => .getSession
  | .updateSession _ _ => .updateSession
  | .deleteSession _ => .deleteSession
  | .createMessage _ _ => .createMessage
  | .listMessages _ => .listMessages
  | .getMessage _ => .getMessage
  | .updateMessage _ _ => .updateMessage
  | .deleteMessage _ => .deleteMessage
  | .createRule _ => .createRule
  | .listRules => .listRules
  | .getRule _ => .getRule
  | .updateRule _ _ => .updateRule
  | .deleteRule _ => .deleteRule
  | .createSequence _ => .createSequence
  | .listSequences => .listSequences
  | .getSequence _ => .getSequence
  | .updateSequence _ _ => .updateSequence
  | .deleteSequence _ => .deleteSequence
  | .createStep _ _ => .createStep
  | .listSteps _ => .listSteps
  | .updateStep _ _ _ => .updateStep
  | .deleteStep _ _ => .deleteStep
  | .enrollLead _ _ => .enrollLead

def GuardedEndpoint.Serves : GuardedEndpoint → EndpointName → Prop
  | request r _, n => n = r.name
  | provisionTenant _ _ _, n => n = .provisionTenant
  | enrollDesignPartner _ _ _, n => n = .enrollDesignPartner
  | promoteRollout _ _ _, n => n = .promoteRollout
  | replayDlqJob _ _ _ _, n => n = .replayDlqJob
  | syncHubspotLead _ _ _ _ _, n => n = .syncHubspotLead
  | createCalendarBooking _ _ _ _, n => n = .createCalendarBooking
  | adminRead _, n => n = .getPlanLimits ∨ n = .getTenantUsage ∨ n = .listDlqJobs ∨ n = .getCalendarAvailability

def Endpoint.Serves : Endpoint → EndpointName → Prop
  | unrouted _, _ => False
  | probe, n => n = .healthz ∨ n = .readyz ∨ n = .metrics
  | me, n => n = .me
  | svixWebhook _ _ _, n => n = .receiveSvixWebhook
  | hubspotWebhook _ _ _, n => n = .receiveHubspotWebhook
  | guarded endpoint, n => endpoint.Serves n

theorem Request.guardOf_name (r : Request) : Routes.guardOf r.name = some r.guard := by
  cases r <;> rfl

theorem GuardedEndpoint.guardOf_serves {endpoint : GuardedEndpoint} {n : EndpointName} (h : endpoint.Serves n) :
    Routes.guardOf n = some endpoint.guard := by
  cases endpoint with
  | request r inputs =>
    cases h
    exact r.guardOf_name
  | adminRead answer => rcases h with rfl | rfl | rfl | rfl <;> rfl
  | _ =>
    cases h
    rfl

open Routes

theorem Endpoint.Serves.of_requireAdmin {endpoint : Endpoint} {n : EndpointName} (h : endpoint.Serves n)
    (hguard : guardOf n = some .requireAdmin) : ∃ e, endpoint = .guarded e ∧ e.guard = .requireAdmin := by
  cases endpoint with
  | guarded e =>
    have hsame := (GuardedEndpoint.guardOf_serves h).symm.trans hguard
    exact ⟨e, rfl, Option.some.inj hsame⟩
  | unrouted e => exact absurd h id
  | probe =>
    rcases h with rfl | rfl | rfl
    · cases hguard
    · cases hguard
    · cases hguard
  | _ =>
    cases h
    cases hguard

theorem routes_unambiguous (apiPrefix : String) (table : List Route) (hperm : table.Perm (routes apiPrefix))
    (method : Method) (path : String) : resolve table method path = resolve (routes apiPrefix) method path := by
  apply find?_perm hperm
  intro r hr s hs hr' hs'
  obtain ⟨hmethod, hr'⟩ := of_decide_eq_true hr'
  obtain ⟨hmethod', hs'⟩ := of_decide_eq_true hs'
  exact eq_of_matches hr hs (hmethod.trans hmethod'.symm) hr' hs'

theorem routes_unambiguous_lead :
    resolve (routes "/v1").reverse .get "/v1/leads/lead-1" = resolve (routes "/v1") .get "/v1/leads/lead-1" ∧
      (resolve (routes "/v1") .get "/v1/leads/lead-1").map Route.endpoint = some .getLead :=
  ⟨routes_unambiguous "/v1" _ (List.reverse_perm _) .get "/v1/leads/lead-1", by decide +kernel⟩

section Access

variable {app : App} {p : Platform} {a : Arrival} {e : HTTPException} {context : AuthContext}

theorem answer_refused (hexcluded : ¬AuthMiddleware.isExcluded a.http.path)
    (htoken : AuthMiddleware.bearerToken a.http.authorization = .error e) :
    p.answer app a = (.response e.statusCode none, p) := by
  have hdispatch : app.auth.dispatch app.gate p.gate a.http a.xTenantId a.now a.clock = (.refused e, p.gate) := by
    rw [AuthMiddleware.dispatch, if_neg hexcluded, htoken]
  simp only [Platform.answer, Platform.verdict, Platform.afterDispatch, hdispatch]
  rfl

theorem answer_excluded (hexcluded : AuthMiddleware.isExcluded a.http.path) :
    p.answer app a =
      (((a.endpoint.handle app p none).1.ending a.endpoint.successCode none), (a.endpoint.handle app p none).2) := by
  have hdispatch : app.auth.dispatch app.gate p.gate a.http a.xTenantId a.now a.clock = (.excluded, p.gate) := by
    rw [AuthMiddleware.dispatch, if_pos hexcluded]
  simp only [Platform.answer, Platform.verdict, Platform.afterDispatch, hdispatch]
  rfl

theorem handle_none {endpoint : Endpoint} {r : Route} (hserves : endpoint.Serves r.endpoint) (hprobe : ¬r.IsProbe)
    (hwebhook : ¬r.IsWebhook) :
    endpoint.handle app p none = (.refused ⟨401, "authentication required"⟩, p) ∨
      r.endpoint = .me ∧ endpoint.handle app p none = (.raised, p) := by
  cases endpoint with
  | unrouted e => exact absurd hserves id
  | probe => exact absurd hserves hprobe
  | me => exact .inr ⟨hserves, rfl⟩
  | svixWebhook request id processing => exact absurd (.inl hserves) hwebhook
  | hubspotWebhook request newId commit => exact absurd (.inr hserves) hwebhook
  | guarded endpoint =>
    left
    cases hguard : endpoint.guard with
    | getAuthContext => simp [Endpoint.handle, hguard, Guard.check, getAuthContext]
    | requireAdmin => simp [Endpoint.handle, hguard, Guard.check, requireAdmin, getAuthContext, Except.bind]

theorem handle_not_admin {endpoint : Endpoint} {n : EndpointName} (hserves : endpoint.Serves n)
    (hguard : guardOf n = some .requireAdmin) (hadmin : ¬context.IsAdmin) :
    endpoint.handle app p (some context) = (.refused ⟨403, "admin role required"⟩, p) := by
  obtain ⟨e, rfl, hrequired⟩ := hserves.of_requireAdmin hguard
  simp [Endpoint.handle, hrequired, Guard.check, requireAdmin, getAuthContext, Except.bind, hadmin]

end Access

theorem guards_enforced (app : App) (p : Platform) (a : Arrival) (apiPrefix : String) (hbraces : '{' ∉ apiPrefix.toList)
    (method : Method) (r : Route) (hroute : resolve (routes apiPrefix) method a.http.path = some r)
    (hserves : a.endpoint.Serves r.endpoint) :
    (∀ e, AuthMiddleware.bearerToken a.http.authorization = .error e →
      (r.IsPublic apiPrefix → p.answer app a =
        ((a.endpoint.handle app p none).1.ending a.endpoint.successCode none, (a.endpoint.handle app p none).2)) ∧
      (¬r.IsPublic apiPrefix → p.answer app a = (.response 401 none, p) ∨
        r.endpoint = .me ∧ UnderDocs apiPrefix ∧ p.answer app a = (.exception, p))) ∧
    ∀ context, p.verdict app a = .admitted context → r.guard = some .requireAdmin → ¬context.IsAdmin →
      p.answer app a = (.response 403 (some context), p.afterDispatch app a) := by
  obtain ⟨hr, -, hmatches⟩ := resolve_eq_some hroute
  have hiff := isExcluded_iff hbraces hr hmatches
  constructor
  · intro e htoken
    constructor
    · intro hpublic
      apply answer_excluded
      rw [hiff]
      rcases hpublic with hprobe | ⟨hwebhook, hdocs | hv1⟩
      · exact .inl hprobe
      · exact .inr (.inl hdocs)
      · exact .inr (.inr ⟨hwebhook, hv1⟩)
    · intro hpublic
      by_cases hexcluded : AuthMiddleware.isExcluded a.http.path
      · -- The middleware lets pass more than the public paths where the prefix is under the documentation.
        have hdocs : UnderDocs apiPrefix := by
          rcases hiff.mp hexcluded with hprobe | hdocs | ⟨hwebhook, hv1⟩
          · exact absurd (.inl hprobe) hpublic
          · exact hdocs
          · exact absurd (.inr ⟨hwebhook, .inr hv1⟩) hpublic
        have hprobe : ¬r.IsProbe := fun hprobe => hpublic (.inl hprobe)
        have hwebhook : ¬r.IsWebhook := fun hwebhook => hpublic (.inr ⟨hwebhook, .inl hdocs⟩)
        rw [answer_excluded hexcluded]
        rcases handle_none hserves hprobe hwebhook with hhandle | ⟨hme, hhandle⟩
        · rw [hhandle]
          exact .inl rfl
        · rw [hhandle]
          exact .inr ⟨hme, hdocs, rfl⟩
      · rw [answer_refused hexcluded htoken, AuthMiddleware.statusCode_bearerToken htoken]
        exact .inl rfl
  · intro context hadmitted hguard hadmin
    rw [guard_eq hr] at hguard
    rw [Platform.answer, hadmitted]
    dsimp only
    rw [handle_not_admin hserves hguard hadmin]
    rfl

namespace Routes

def createRuleUnsigned : Arrival where
  http := { method := "POST", path := "/v1/routing/rules" }
  endpoint := .guarded (.request (.createRule { name := "hot leads", action := "assign" }) Gateway.opsInputs)

end Routes

theorem guards_enforced_rule :
    (resolve (routes "/v1") .post "/v1/routing/rules").map Route.endpoint = some .createRule ∧
      ({} : Platform).answer Gateway.opsApp createRuleUnsigned = (.response 401 none, {}) := by
  have hroute : resolve (routes "/v1") .post "/v1/routing/rules" =
      some ⟨.post, "/v1/routing/rules", some .requireAdmin, .createRule⟩ := by
    decide +kernel
  have henforced := guards_enforced Gateway.opsApp {} createRuleUnsigned "/v1" (by decide) .post _ hroute rfl
  have hclosed : ¬Route.IsPublic "/v1" ⟨.post, "/v1/routing/rules", some .requireAdmin, .createRule⟩ := by decide
  refine ⟨by rw [hroute]; rfl, ?_⟩
  rcases (henforced.1 _ rfl).2 hclosed with hanswer | ⟨hme, -⟩
  · exact hanswer
  · cases hme

end Leadline
