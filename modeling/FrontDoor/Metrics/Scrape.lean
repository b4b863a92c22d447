import FrontDoor.Http.Message
import FrontDoor.Metrics.Registry

/-!
# Scraping

A registry is shown at one path, which is compared as it was sent. HEAD is told the length of the
text but not the text.
-/

namespace FrontDoor.Scrape

def path : Bytes := Utf8.encode "/metrics".toList

def contentType : String := "text/plain; version=0.0.4"

/-- The response with the exposition, or without anything when it cannot be made. -/
def exposition (text : Except MetricsError String) : Response :=
  match text with
  | .ok t => (Response.ofContent statusOk contentType (Utf8.encode t.toList)).withLength
  | .error _ => (Response.empty internalError).withLength

/-- Answers a request when the exposition is `text`. -/
def serve (text : Except MetricsError String) (request : Request) : Response :=
  if request.path ≠ path then (Response.empty notFound).withLength
  else if request.method.name = "GET" then exposition text
  else if request.method.name = "HEAD" then { exposition text with body := [] }
  else (Response.mk methodNotAllowed [("allow", "GET,HEAD")] []).withLength

end FrontDoor.Scrape
