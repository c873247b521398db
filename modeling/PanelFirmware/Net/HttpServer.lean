import PanelFirmware.Lib.Bytes

/-!
# `net/src/httpServerTSK.c`, `net/src/htmlPage.c`: what a request is answered with

A request is answered with a header, which is put together in `pageData`, and with the resource that
its path begins with. Five resources are files in the flash; two are filled in by a handler.

* `serve_spec`: an answer is a resource of the table, the one asked for if there is one.
-/

namespace PanelFirmware.Net

open PanelFirmware.Lib

/-- Source: `htmlPage.h` `urlType_type`. -/
inductive UrlType
  | html
  | css
  | bin
  | js
  | ico
  deriving DecidableEq

/-- The files in the flash. Source: `htmlPage.c` `resource_reg`. -/
inductive File
  | indexHtml
  | overallJs
  | stylesCss
  | faviconPng
  | html404
  deriving DecidableEq

/-- The functions that fill in a resource. Source: `htmlPage.c` `handle_version`,
`handle_statemeastask`. -/
inductive Handler
  | version
  | statemeastask
  deriving DecidableEq

/-- Where a resource comes from. Source: `htmlPage.h` `httpResource_type`, `data.payload` and
`handler`. -/
inductive Payload
  | file (f : File)
  | handled (h : Handler)
  deriving DecidableEq

/-- Source: `htmlPage.h` `httpResource_type`. -/
structure HttpResource where
  url : String
  type : UrlType
  payload : Payload

/-- The resources; the type of a handler's is the one it returns. Source: `htmlPage.c`
`httpResource`, `handle_version`, `handle_statemeastask`. -/
def httpResource : List HttpResource :=
  [⟨"/ ", .html, .file .indexHtml⟩, ⟨"/overall.js", .js, .file .overallJs⟩,
    ⟨"/styles.css", .css, .file .stylesCss⟩, ⟨"/version.bin", .bin, .handled .version⟩,
    ⟨"/statemeastask.bin", .bin, .handled .statemeastask⟩,
    ⟨"/favicon.png", .ico, .file .faviconPng⟩, ⟨"/404", .html, .file .html404⟩]

/-- The last resource. Source: `httpServerTSK.c` `http_server_serve`, `getUrlNumber - 1`. -/
def notFound : HttpResource := ⟨"/404", .html, .file .html404⟩

/-- Source: `httpServerTSK.c` `httpStrcmp`. -/
def httpStrcmp (s1 : List Char) (s2 : String) : Bool := s2.toList.isPrefixOf s1

/-- The header of a reply, by whether the resource was found. Source: `httpServerTSK.c` `http_200`,
`http_404`, `http_server`, `http_connectionClose`, `http_contentType`, `http_headerEnd`. -/
def header (found : Bool) (type : UrlType) : String :=
  (if found then "HTTP/1.1 200 OK\r\n" else "HTTP/1.1 404 Not Found\r\n") ++
    "Server:STM32 based\r\n" ++ "Connection: close\r\n" ++
    (match type with
      | .html => "Content-type: text/html\r\n"
      | .css => "Content-type: text/css\r\n"
      | .bin => "Content-type: text/plain\r\n"
      | .js => "Content-type: application/x-javascript\r\n"
      | .ico => "Content-type: image/vnd.microsoft.icon\r\n") ++
    "\r\n"

/-- The characters of a string as bytes. -/
def bytesOf (s : String) : List Byte := s.toList.map fun c => BitVec.ofNat 8 c.toNat

/-- What a request is answered with: whether it was found and the resource; `none` for a request
that is not answered. Of several resources that match the last one is taken.
Source: `httpServerTSK.c` `http_server_serve`. -/
def serve (buf : List Char) : Option (Bool × HttpResource) :=
  if httpStrcmp buf "GET /" then
    match httpResource.reverse.find? fun r => httpStrcmp (buf.drop 4) r.url with
    | some r => some (true, r)
    | none => some (false, notFound)
  else none

/-- The resource for a missing one is the last of the table. -/
lemma notFound_mem : notFound ∈ httpResource :=
  List.mem_of_getLast? rfl

/-- **What is answered is a resource of the table**: one that the path begins with, or, when it
begins with none, the one for a missing resource. -/
theorem serve_spec {buf : List Char} {found : Bool} {r : HttpResource}
    (h : serve buf = some (found, r)) :
    r ∈ httpResource ∧ (found = true → httpStrcmp (buf.drop 4) r.url = true) ∧
      (found = false →
        r = notFound ∧ ∀ q ∈ httpResource, httpStrcmp (buf.drop 4) q.url = false) := by
  unfold serve at h
  split_ifs at h
  split at h
  · next q hq =>
      obtain ⟨rfl, rfl⟩ := Prod.mk.inj (Option.some.inj h)
      have hmatches := List.find?_some hq
      exact ⟨List.mem_reverse.mp (List.mem_of_find?_eq_some hq), fun _ => hmatches,
        fun hfalse => (by cases hfalse)⟩
  · next hnone =>
      obtain ⟨rfl, rfl⟩ := Prod.mk.inj (Option.some.inj h)
      refine ⟨notFound_mem, fun htrue => (by cases htrue), fun _ => ⟨rfl, fun q hq => ?_⟩⟩
      have hnot := List.find?_eq_none.mp hnone q (List.mem_reverse.mpr hq)
      exact Bool.eq_false_iff.mpr hnot

end PanelFirmware.Net
