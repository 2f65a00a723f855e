import DpApiClients.Strings
import DpApiClients.Url.Escape
import DpApiClients.Url.Parse
import DpApiClients.Url.Reference
import DpApiClients.Url.Values
import DpApiClients.Url.Request
import DpApiClients.Dimension.Client
import DpApiClients.Zebedee.Request
import DpApiClients.Cantabular.Codebook
import DpApiClients.Json.Value
import DpApiClients.Json.Encode
import DpApiClients.Json.Parse
import DpApiClients.Json.Number
import DpApiClients.Json.RoundTrip
import DpApiClients.Json.Decode
import DpApiClients.Json.Typed
import DpApiClients.Cantabular.Query
import DpApiClients.Json.Select
import DpApiClients.Cantabular.Gql
import DpApiClients.Cantabular.Response
import DpApiClients.Stream.Pipe
import DpApiClients.Stream.Invariant
import DpApiClients.Stream.Delivery
import DpApiClients.Stream.Termination
import DpApiClients.Zebedee.Page
import DpApiClients.Zebedee.FanOut
import DpApiClients.Zebedee.Invariant
import DpApiClients.Zebedee.Enrichment
import DpApiClients.Zebedee.Termination
import DpApiClients.Zebedee.Get
import DpApiClients.Zebedee.Dataset
import DpApiClients.Identity.Authentication
import DpApiClients.Filter.Client
