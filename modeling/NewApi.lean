import NewApi.Relay.Basic
import NewApi.Relay.Pipeline
import NewApi.Relay.Run
import NewApi.Relay.Task
import NewApi.Relay.Midjourney
import NewApi.Json.Number
import NewApi.Json.Value
import NewApi.Json.Path
import NewApi.Json.GoValue
import NewApi.Json.Gjson
import NewApi.Json.Text
import NewApi.Override.NegativeIndex
import NewApi.Override.Condition
import NewApi.Override.Operations
import NewApi.Override.Move
import NewApi.Override.Param
import NewApi.Log.Transport
import NewApi.Middleware.Session
import NewApi.Channel.Convert
import NewApi.Channel.Adaptor
import NewApi.Mask.Host
import NewApi.Mask.Regex
import NewApi.Mask.Sensitive
