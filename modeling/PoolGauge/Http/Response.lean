import PoolGauge.Cache.Basic
import PoolGauge.Metrics.Registry

/-!
# Answers to requests

Three pages can be read: the start page, the metrics, and the health of the last collection.
-/
namespace PoolGauge

inductive Page where
  | start | metrics | health
deriving DecidableEq, Repr

structure Request where
  method : String
  target : String
deriving DecidableEq, Repr

structure Response where
  status : Nat
  contentType : Option String
  allow : Option String
  body : String
deriving DecidableEq, Repr

namespace Request

/-- The part of a target after the scheme and the host, if it names them. -/
def localTarget (target : List Char) : List Char :=
  match target.dropWhile (fun c => c.isAlphanum || c == '+' || c == '-' || c == '.') with
  | ':' :: '/' :: '/' :: rest =>
    match rest.dropWhile fun c => c != '/' && c != '?' && c != '#' with
    | '/' :: path => '/' :: path
    | other => '/' :: other
  | _ => target

/-- The path of a target, without query and fragment. -/
def path (request : Request) : String :=
  String.ofList ((localTarget request.target.toList).takeWhile fun c => c != '?' && c != '#')

def page? (request : Request) : Option Page :=
  match request.path with
  | "/" => some .start
  | "/metrics" => some .metrics
  | "/health" => some .health
  | _ => none

def isHead (request : Request) : Bool :=
  request.method == "HEAD"

def reads (request : Request) : Bool :=
  request.method == "GET" || request.isHead

/-- Whether a request reads the metrics, for which a snapshot is needed. -/
def isScrape (request : Request) : Bool :=
  request.reads && request.page? == some .metrics

end Request

namespace Response

def expositionType : String := "text/plain; version=0.0.4; charset=utf-8"

def plain (status : Nat) (body : String) : Response :=
  ⟨status, some "text/plain; charset=utf-8", none, body⟩

def startPage : Response :=
  ⟨200, some "text/html; charset=utf-8", none, "\n".intercalate
    [ "<html>",
      "<head><title>ZFS Exporter</title></head>",
      "<body>",
      "<h1>ZFS Prometheus Exporter</h1>",
      "<p><a href=\"/metrics\">Metrics</a></p>",
      "<p><a href=\"/health\">Health</a></p>",
      "</body>",
      "</html>" ]⟩

/-- The metrics as they are written, or why they could not be. -/
def exposition : Except Metrics.Refusal String → Response
  | .ok body => ⟨200, some expositionType, none, body⟩
  | .error refusal => plain 500 ("Error rendering metrics: " ++ refusal.message)

def metricsPage (cache : Cache) : Option Published → Response
  | none => plain 503 "No ZFS snapshot collected yet"
  | some published =>
    exposition (Metrics.render? published.snapshot.toInventory cache.metrics)

def healthPage (cache : Cache) : Response :=
  if cache.healthy then plain 200 "OK" else plain 503 "ZFS collection failing"

def ofPage (cache : Cache) (served : Option Published) : Page → Response
  | .start => startPage
  | .metrics => metricsPage cache served
  | .health => healthPage cache

def notFound : Response := ⟨404, none, none, ""⟩

def notAllowed : Response := ⟨405, none, some "GET,HEAD", ""⟩

/-- The answer to a request, with the snapshot that is to be served. -/
def answer (request : Request) (cache : Cache) (served : Option Published) : Response :=
  match request.page? with
  | none => notFound
  | some page =>
    if request.reads then
      let full := ofPage cache served page
      if request.isHead then { full with body := "" } else full
    else notAllowed

end Response

end PoolGauge
